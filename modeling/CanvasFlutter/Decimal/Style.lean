import CanvasFlutter.Text
import CanvasFlutter.Decimal.Shortest

/-!
# `CanvasFlutter.Decimal.Style` — numbers as text

A style says how the shortest digits of a double are laid out. Dart source and the text of JSON
numbers each have one.

## Contents
- **Styles.** `Style`: the range written positionally, the fraction of whole numbers, the sign of
  exponents, zero.
- **Writing.** `Style.positional`, `Style.scientific`, `Style.write`; integers by `writeInt`.
-/

namespace CanvasFlutter.Decimal

/-! ## Styles -/

/-- How numbers are written. -/
structure Style where
  /-- Which of two equally near shortest decimals is taken. -/
  tie : Tie
  /-- The least exponent of the first digit that is written without an exponent. -/
  fixedFrom : Int
  /-- The greatest exponent of the first digit that is written without an exponent. -/
  fixedTo : Int
  /-- Whether a whole number without an exponent ends in `.0`. -/
  wholeFraction : Bool
  /-- Whether a positive exponent has a plus sign. -/
  plusSign : Bool
  /-- Zero, and zero with a minus sign. -/
  zero : Text
  negativeZero : Text

/-! ## Writing -/

/-- An integer in decimal. -/
def writeInt (n : Int) : Text :=
  if n < 0 then '-' :: digitsOf n.natAbs else digitsOf n.natAbs

/-- The digits with a point at their place. -/
def Style.positional (s : Style) (d : Numeral) : Text :=
  if d.exponent < 0 then
    '0' :: '.' :: (List.replicate ((-d.exponent).toNat - 1) '0' ++ d.digits)
  else
    let wholeLength := d.exponent.toNat + 1
    let whole := d.digits.take wholeLength
    let fraction := d.digits.drop wholeLength
    let whole := whole ++ List.replicate (wholeLength - whole.length) '0'
    if fraction.isEmpty then
      if s.wholeFraction then whole ++ ['.', '0'] else whole
    else whole ++ '.' :: fraction

/-- One digit, a point before any others, and the exponent. -/
def Style.scientific (s : Style) (d : Numeral) : Text :=
  let mantissa :=
    match d.digits with
    | [] => []
    | [digit] => [digit]
    | digit :: more => digit :: '.' :: more
  let sign := if s.plusSign ∧ 0 ≤ d.exponent then ['+'] else []
  mantissa ++ 'e' :: (sign ++ writeInt d.exponent)

/-- A decimal without its sign. -/
def Style.magnitude (s : Style) (d : Numeral) : Text :=
  if s.fixedFrom ≤ d.exponent ∧ d.exponent ≤ s.fixedTo then s.positional d else s.scientific d

/-- A double in this style. -/
def Style.write (s : Style) (x : Float) : Text :=
  match Binary.ofFloat? x with
  | some b =>
      match shortest? s.tie b with
      | some d => if b.negative then '-' :: s.magnitude d else s.magnitude d
      | none => if b.negative then s.negativeZero else s.zero
  | none =>
      if x.isNaN then "NaN".toList
      else if x < 0 then "-inf".toList
      else "inf".toList

end CanvasFlutter.Decimal
