import CanvasFlutter.Text

/-!
# `CanvasFlutter.Dart.Name` — names in generated source

Words of a canvas that choose one of a few Dart constants. A word that chooses none gets the
default, so no word of a canvas ever reaches the source as code.

## Contents
- **Constants.** `alignment`, `textAlign`, `fontWeight?`, `keyboardType`.
- **Identifiers.** `identifier` keeps only what an identifier may hold.
-/

namespace CanvasFlutter.Dart.Name

/-! ## Constants -/

/-- A word without the white space around it, in small letters. -/
def key (raw : Text) : String := String.ofList (Text.lower (Text.trim raw))

/-- The alignment that a word names, whatever stands between its letters. -/
def alignment (raw : Text) : String :=
  match String.ofList (Text.lower (raw.filter Char.isAlphanum)) with
  | "topleft" => "Alignment.topLeft"
  | "topcenter" => "Alignment.topCenter"
  | "top" => "Alignment.topCenter"
  | "topright" => "Alignment.topRight"
  | "centerleft" => "Alignment.centerLeft"
  | "left" => "Alignment.centerLeft"
  | "centerright" => "Alignment.centerRight"
  | "right" => "Alignment.centerRight"
  | "bottomleft" => "Alignment.bottomLeft"
  | "bottomcenter" => "Alignment.bottomCenter"
  | "bottom" => "Alignment.bottomCenter"
  | "bottomright" => "Alignment.bottomRight"
  | _ => "Alignment.center"

/-- The text alignment that a word names. -/
def textAlign (raw : Text) (fallback : String) : String :=
  match key raw with
  | "left" => "TextAlign.left"
  | "right" => "TextAlign.right"
  | "center" => "TextAlign.center"
  | "justify" => "TextAlign.justify"
  | "start" => "TextAlign.start"
  | "end" => "TextAlign.end"
  | _ => fallback

/-- The font weight that a word names; none for the regular weight. -/
def fontWeight? (raw : Text) : Option String :=
  match key raw with
  | "bold" => some "FontWeight.bold"
  | "700" => some "FontWeight.bold"
  | "w700" => some "FontWeight.bold"
  | "100" => some "FontWeight.w100"
  | "w100" => some "FontWeight.w100"
  | "200" => some "FontWeight.w200"
  | "w200" => some "FontWeight.w200"
  | "300" => some "FontWeight.w300"
  | "w300" => some "FontWeight.w300"
  | "500" => some "FontWeight.w500"
  | "w500" => some "FontWeight.w500"
  | "600" => some "FontWeight.w600"
  | "w600" => some "FontWeight.w600"
  | "800" => some "FontWeight.w800"
  | "w800" => some "FontWeight.w800"
  | "900" => some "FontWeight.w900"
  | "w900" => some "FontWeight.w900"
  | _ => none

/-- The keyboard that an input type asks for. -/
def keyboardType (raw : Text) : String :=
  match key raw with
  | "number" => "TextInputType.number"
  | "email" => "TextInputType.emailAddress"
  | "phone" => "TextInputType.phone"
  | "multiline" => "TextInputType.multiline"
  | _ => "TextInputType.text"

/-! ## Identifiers -/

/-- The ASCII letters, digits and underscores of a text, or the fallback if these do not make an
identifier. -/
def identifier (raw fallback : Text) : Text :=
  let cleaned := (Text.trim raw).filter Text.isAsciiWord
  match cleaned with
  | [] => fallback
  | first :: _ => if first.isAlpha || first == '_' then cleaned else fallback

end CanvasFlutter.Dart.Name
