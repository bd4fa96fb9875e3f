import CanvasFlutter.Text

/-!
# `CanvasFlutter.Dart.Paint` — colours

A colour is written as three, six or eight hexadecimal digits in the order red, green, blue,
alpha, with any number of `#` in front. Dart wants alpha first and all eight digits.

## Contents
- **Paints.** `Paint`, and its Dart expression.
- **Reading.** `Paint.isTransparent`, `Paint.parse?`.
-/

namespace CanvasFlutter.Dart

/-! ## Paints -/

/-- What a layer is filled with. -/
inductive Paint where
  /-- Nothing: the layer is not drawn. -/
  | transparent
  /-- A colour, as eight hexadecimal digits with alpha first. -/
  | color (argb : Text)
  deriving DecidableEq, Repr

/-- The Dart expression of a colour. -/
def Paint.colorText (argb : Text) : Text := "Color(0x".toList ++ argb ++ [')']

/-- The Dart expression of a colour; none for a layer that is not drawn. -/
def Paint.colorText? : Paint → Option Text
  | .transparent => none
  | .color argb => some (colorText argb)

/-- The Dart expression of any paint. -/
def Paint.text : Paint → Text
  | .transparent => "Colors.transparent".toList
  | .color argb => colorText argb

/-! ## Reading -/

/-- A hexadecimal digit. -/
def isHexDigit (c : Char) : Bool :=
  ('0' ≤ c && c ≤ '9') || ('a' ≤ c && c ≤ 'f') || ('A' ≤ c && c ≤ 'F')

/-- Whether a text names the paint that draws nothing. -/
def Paint.isTransparent (raw : Text) : Bool :=
  let name := Text.lower (Text.trim raw)
  name == "transparent".toList || name == "#transparent".toList

/-- The eight digits of a colour with alpha first; opaque if no alpha is given. -/
def argb? : Text → Option Text
  | [r, g, b] => some ['F', 'F', r, r, g, g, b, b]
  | [r1, r2, g1, g2, b1, b2] => some ['F', 'F', r1, r2, g1, g2, b1, b2]
  | [r1, r2, g1, g2, b1, b2, a1, a2] => some [a1, a2, r1, r2, g1, g2, b1, b2]
  | _ => none

/-- The paint that a text stands for. -/
def Paint.parse? (raw : Text) : Option Paint :=
  if isTransparent raw then some .transparent
  else
    let digits := (Text.trim raw).dropWhile (· == '#')
    if digits.all isHexDigit then (argb? digits).map .color else none

end CanvasFlutter.Dart
