import CanvasFlutter.Decimal.Binary

/-!
# `CanvasFlutter.Decimal.Shortest` — the fewest digits that read back

A decimal reads back as a double when it lies in the interval of reals that round to it. The
shortest digits are found by trying grids of one digit, two digits and so on: if any point of a
grid lies in the interval, so does one of the two points of that grid next to the value.

## Contents
- **Interval.** `Interval` holds a value and the bounds of what rounds to it, over one denominator.
- **Grid.** `Interval.onGrid?` is the point of a grid that reads back, nearest first.
- **Digits.** `Numeral` and `shortest?`; the last digit is never a zero.
-/

namespace CanvasFlutter.Decimal

/-! ## The interval that rounds to a value -/

/-- A value and the bounds of the reals that round to it, as fractions over one denominator. -/
structure Interval where
  low : Nat
  value : Nat
  high : Nat
  denominator : Nat
  /-- Whether the bounds themselves round to the value. -/
  closed : Bool

/-- What rounds to a finite double other than zero: half a step to either side, and half as far
below a power of two, where the steps get smaller. -/
def Interval.ofBinary (b : Binary) : Interval :=
  let atPower := b.significand = hiddenBit ∧ b.exponent ≠ -1074
  let scale := Nat.pow 2 (b.exponent - 2).toNat
  { low := (4 * b.significand - if atPower then 1 else 2) * scale
    value := 4 * b.significand * scale
    high := (4 * b.significand + 2) * scale
    denominator := Nat.pow 2 (2 - b.exponent).toNat
    closed := b.significand % 2 = 0 }

/-- The same numbers counted in units of `10 ^ unit`. -/
def Interval.inUnits (i : Interval) (unit : Int) : Interval :=
  let up := Nat.pow 10 (-unit).toNat
  { i with
    low := i.low * up
    value := i.value * up
    high := i.high * up
    denominator := i.denominator * Nat.pow 10 unit.toNat }

/-- Whether a whole number of units rounds to the value. -/
def Interval.holds (i : Interval) (n : Nat) : Bool :=
  if i.closed then i.low ≤ n * i.denominator && n * i.denominator ≤ i.high
  else i.low < n * i.denominator && n * i.denominator < i.high

/-! ## Grids -/

/-- Which of two equally near decimals is taken. -/
inductive Tie where
  /-- The one farther from zero. -/
  | up
  /-- The one with an even last digit. -/
  | even
  deriving Repr, DecidableEq

/-- The whole number of units that rounds to the value, the nearer one if there are two. -/
def Interval.onGrid? (i : Interval) (tie : Tie) : Option Nat :=
  let below := i.value / i.denominator
  match i.holds below, i.holds (below + 1) with
  | true, false => some below
  | false, true => some (below + 1)
  | false, false => none
  | true, true =>
      let twice := 2 * i.value
      let middle := (2 * below + 1) * i.denominator
      if twice < middle then some below
      else if middle < twice then some (below + 1)
      else if tie = .even ∧ below % 2 = 0 then some below
      else some (below + 1)

/-- Whatever a grid yields reads back. -/
theorem Interval.holds_of_onGrid? {i : Interval} {tie : Tie} {n : Nat}
    (h : i.onGrid? tie = some n) : i.holds n = true := by
  simp only [Interval.onGrid?] at h
  split at h
  · next h1 _ => simp_all
  · next _ h2 => simp_all
  · simp at h
  · next h1 h2 =>
      split at h
      · simp_all
      · split at h
        · simp_all
        · split at h <;> simp_all

/-! ## Digits -/

/-- The decimal `d.ddd · 10 ^ exponent`, given by its digits. -/
structure Numeral where
  digits : List Char
  exponent : Int
  deriving Repr, DecidableEq

/-- The decimal digits of a natural number. -/
def digitsOf (n : Nat) : List Char := Nat.toDigits 10 n

/-- Without the zeros at the end. -/
def dropTrailingZeros (digits : List Char) : List Char :=
  (digits.reverse.dropWhile (· == '0')).reverse

/-- The decimal `n · 10 ^ unit`. -/
def Numeral.ofUnits (n : Nat) (unit : Int) : Numeral :=
  let digits := digitsOf n
  ⟨dropTrailingZeros digits, unit + (digits.length - 1 : Nat)⟩

/-- The greatest power of ten not above a positive fraction, as an exponent. -/
def decimalExponent (numerator denominator : Nat) : Int :=
  if denominator ≤ numerator then
    (((digitsOf (numerator / denominator)).length - 1 : Nat) : Int)
  else
    -((digitsOf ((denominator + numerator - 1) / numerator - 1)).length : Int)

/-- The fewest digits that read back as a finite double, the nearest such digits; `none` for
zero. Seventeen digits are always enough. -/
def shortest? (tie : Tie) (b : Binary) : Option Numeral :=
  if b.significand = 0 then none
  else
    let interval := Interval.ofBinary b
    let leading := decimalExponent interval.value interval.denominator
    (List.range 17).findSome? fun (more : Nat) =>
      let unit := leading - (more : Int)
      ((interval.inUnits unit).onGrid? tie).map (Numeral.ofUnits · unit)

end CanvasFlutter.Decimal
