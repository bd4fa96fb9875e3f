import CanvasFlutter.Text

/-!
# `CanvasFlutter.Decimal.Read` — reading doubles

## Contents
- **Value.** `nearest` is the double nearest to `digits · 10 ^ exponent`.
- **Grammar.** `readFinite?` accepts an optional sign, digits with at most one point among or next
  to them, and an optional exponent.
-/

namespace CanvasFlutter.Decimal

/-! ## Value -/

/-- The number that a run of decimal digits stands for. -/
def digitsValue (digits : Text) : Nat :=
  digits.foldl (fun n c => 10 * n + (c.toNat - '0'.toNat)) 0

/-- The double nearest to `digits · 10 ^ exponent`, infinite beyond the range of doubles. Outside
a range of magnitudes that every finite double other than zero keeps to, the answer does not
depend on the digits. -/
def nearest (digits : Text) (exponent : Int) : Float :=
  let digits := digits.dropWhile (· == '0')
  let top := exponent + digits.length
  if digits.isEmpty || top < -400 then 0
  else if 400 < top then 1 / 0
  else Float.ofScientific (digitsValue digits) (decide (exponent < 0)) exponent.natAbs

/-! ## Grammar -/

/-- The digits at the front of a text, and what follows them. -/
def spanDigits (t : Text) : Text × Text := (t.takeWhile Char.isDigit, t.dropWhile Char.isDigit)

/-- A sign, if there is one, and what follows it. -/
def spanSign : Text → Bool × Text
  | '-' :: rest => (true, rest)
  | '+' :: rest => (false, rest)
  | rest => (false, rest)

/-- The value of `e`, an optional sign and digits, or zero if nothing is left. -/
def readExponent? : Text → Option Int
  | [] => some 0
  | c :: rest =>
      if c = 'e' ∨ c = 'E' then
        let (negative, rest) := spanSign rest
        let (digits, rest) := spanDigits rest
        if digits.isEmpty || !rest.isEmpty then none
        else some (if negative then -(digitsValue digits : Int) else digitsValue digits)
      else none

/-- The finite double that a text stands for. -/
def readFinite? (t : Text) : Option Float :=
  let (negative, t) := spanSign t
  let (whole, t) := spanDigits t
  let (fraction, t) :=
    match t with
    | '.' :: rest => spanDigits rest
    | rest => ([], rest)
  if whole.isEmpty && fraction.isEmpty then none
  else
    match readExponent? t with
    | none => none
    | some exponent =>
        let x := nearest (whole ++ fraction) (exponent - fraction.length)
        if x.isInf then none else some (if negative then -x else x)

end CanvasFlutter.Decimal
