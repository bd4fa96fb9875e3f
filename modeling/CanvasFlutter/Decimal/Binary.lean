/-!
# `CanvasFlutter.Decimal.Binary` — a double as a whole number times a power of two

Exact arithmetic on a double starts from its significand and exponent. Everything here is on
natural numbers, so it can be computed with and reasoned about without rounding.

## Contents
- **Taking apart.** `Binary`, `Binary.ofFloat?`.
- **Whole numbers.** `Binary.floor`, `Binary.nearest`, and their doubles `wholePart` and
  `roundHalfAway`.
-/

namespace CanvasFlutter.Decimal

/-! ## Taking a double apart -/

/-- The finite number `± significand · 2 ^ exponent`. -/
structure Binary where
  negative : Bool
  significand : Nat
  exponent : Int
  deriving Repr, DecidableEq

/-- The weight of the bit that normal doubles do not store. -/
def hiddenBit : Nat := 4503599627370496

/-- The weight of the bit that makes a double negative. -/
def signBit : Nat := 9223372036854775808

/-- Sign, significand and exponent of a finite double; `none` for the infinities and for what is
no number. -/
def Binary.ofFloat? (x : Float) : Option Binary :=
  let bits := x.toBits.toNat
  let field : Nat := bits / hiddenBit % 2048
  let fraction : Nat := bits % hiddenBit
  let negative := decide (signBit ≤ bits)
  if field = 2047 then none
  else if field = 0 then some ⟨negative, fraction, -1074⟩
  else some ⟨negative, hiddenBit + fraction, (field : Int) - 1075⟩

/-- Whether a double is a number with a magnitude. -/
def isFinite (x : Float) : Bool := (Binary.ofFloat? x).isSome

/-! ## Whole numbers -/

/-- The magnitude without its fraction. -/
def Binary.floor (b : Binary) : Nat :=
  if 0 ≤ b.exponent then b.significand * Nat.pow 2 b.exponent.toNat
  else b.significand / Nat.pow 2 (-b.exponent).toNat

/-- The whole number nearest to the magnitude; a half goes up. -/
def Binary.nearest (b : Binary) : Nat :=
  if 0 ≤ b.exponent then b.significand * Nat.pow 2 b.exponent.toNat
  else
    (2 * b.significand + Nat.pow 2 (-b.exponent).toNat) / (2 * Nat.pow 2 (-b.exponent).toNat)

/-- Rounding up by a half is at most one away from cutting off. -/
theorem Binary.floor_le_nearest (b : Binary) : b.floor ≤ b.nearest := by
  unfold Binary.floor Binary.nearest
  split
  · exact Nat.le_refl _
  · rw [← Nat.mul_div_mul_left b.significand (Nat.pow 2 (-b.exponent).toNat) (by decide : 0 < 2)]
    exact Nat.div_le_div_right (Nat.le_add_right _ _)

/-- The double of a whole number. -/
def ofWhole (n : Nat) : Float := Float.ofScientific n false 0

/-- The greatest whole number not above a double that is at least zero. -/
def wholePart (x : Float) : Float :=
  match Binary.ofFloat? x with
  | some b => ofWhole b.floor
  | none => x

/-- The nearest whole number; a half goes away from zero. -/
def roundHalfAway (x : Float) : Float :=
  match Binary.ofFloat? x with
  | some b => if b.negative then -ofWhole b.nearest else ofWhole b.nearest
  | none => x

end CanvasFlutter.Decimal
