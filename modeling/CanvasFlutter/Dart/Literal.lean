import CanvasFlutter.Decimal.Style

/-!
# `CanvasFlutter.Dart.Literal` — string and number literals

## Contents
- **Strings.** `Literal.escape` says how a character stands inside single quotes, `Literal.string`
  writes a whole literal.
- **Numbers.** `Literal.numberStyle`, `Literal.number`.
-/

namespace CanvasFlutter.Dart.Literal

/-! ## Strings -/

/-- How a character is written between single quotes. Quote, backslash and dollar sign would end
the literal, begin an escape or begin an interpolation; the rest would end or blur the line. -/
def escape : Char → Text
  | '\\' => ['\\', '\\']
  | '\'' => ['\\', '\'']
  | '$' => ['\\', '$']
  | '\n' => ['\\', 'n']
  | '\r' => ['\\', 'r']
  | '\t' => ['\\', 't']
  | c => [c]

/-- The single-quoted literal of a text. -/
def string (t : Text) : Text := '\'' :: (t.flatMap escape ++ ['\''])

/-! ## Numbers -/

/-- Numbers in Dart source have their shortest digits and no fraction if they are whole; from
`1e-6` to below `1e15` they are written without an exponent. A zero has no sign. -/
def numberStyle : Decimal.Style where
  tie := .up
  fixedFrom := -6
  fixedTo := 14
  wholeFraction := false
  plusSign := false
  zero := ['0']
  negativeZero := ['0']

/-- The literal of a number. -/
def number (x : Float) : Text := numberStyle.write x

end CanvasFlutter.Dart.Literal
