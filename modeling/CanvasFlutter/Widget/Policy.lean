import CanvasFlutter.Canvas.Node
import CanvasFlutter.Dart.Paint

/-!
# `CanvasFlutter.Widget.Policy` — what an attribute is when the node does not say

Every attribute that drawing reads is resolved here: the node's own value if it is there and well
formed, or else the entry of its kind, or else the entry that all kinds share.

## Contents
- **Tables.** `Fallback`, `shared`, `policy`, `fallback?`.
- **Resolution.** `Attributes` and its accessors.
-/

namespace CanvasFlutter.Widget

/-! ## Tables -/

/-- The value of an attribute that a node does not set. -/
inductive Fallback where
  | number (x : Float)
  | text (s : String)
  | flag (b : Bool)

/-- Fallbacks by dotted path. -/
abbrev Table := List (String × Fallback)

/-- Place, size and decoration, common to all kinds. -/
def shared : Table := [
  ("top", .number 0),
  ("left", .number 0),
  ("width", .number 50),
  ("height", .number 50),
  ("decoration.color", .text "#ffffff"),
  ("decoration.border.color", .text "#000000"),
  ("decoration.border.width", .number 0),
  ("decoration.borderRadius", .number 0)]

/-- The fallbacks of one kind. -/
def policy : Kind → Table
  | .headerBar => [("decoration.color", .text "#2196f3")]
  | .label => [
      ("decoration.color", .text "transparent"),
      ("text", .text ""),
      ("fontSize", .number 14),
      ("color", .text "#000000"),
      ("textAlign", .text "start"),
      ("fontWeight", .text "normal")]
  | .iconAction => [
      ("icon", .text "help_outline"),
      ("navigateTo", .text "/"),
      ("tooltip", .text ""),
      ("iconColor", .text "#000000"),
      ("iconSize", .number 24),
      ("overlayColor", .text "#ffffff80")]
  | .textAction => [
      ("text", .text ""),
      ("fontSize", .number 14),
      ("color", .text "#000000"),
      ("textAlign", .text "center"),
      ("fontWeight", .text "normal")]
  | .textInput => [
      ("decoration.color", .text "transparent"),
      ("decoration.border.width", .number 1),
      ("inputType", .text "text"),
      ("borderStyle", .text "outline"),
      ("hintText", .text ""),
      ("labelText", .text ""),
      ("hintColor", .text "#9e9e9e"),
      ("labelColor", .text "#616161"),
      ("color", .text "#000000"),
      ("fontSize", .number 14),
      ("enabled", .flag true),
      ("obscureText", .flag false)]
  | .toggleBox => [
      ("decoration.border.width", .number 2),
      ("checked", .flag false),
      ("activeColor", .text "#2196f3"),
      ("checkColor", .text "#ffffff"),
      ("scale", .number 1),
      ("label", .text ""),
      ("labelPosition", .text "right"),
      ("labelGap", .number 8),
      ("labelColor", .text "#000000"),
      ("labelFontSize", .number 14)]
  | .choiceDropdown => [
      ("selectedOption", .text ""),
      ("hintText", .text ""),
      ("fontSize", .number 14),
      ("color", .text "#000000"),
      ("dropdownColor", .text "#ffffff")]
  | .panel => []
  | .unknown _ => []

/-- The fallback of an attribute: that of the kind, or else the shared one. -/
def fallback? (kind : Kind) (path : String) : Option Fallback :=
  (policy kind).lookup path <|> shared.lookup path

/-! ## Resolution -/

/-- A node's attributes under the policy of a kind, which need not be the node's own. -/
structure Attributes where
  node : Node
  kind : Kind

namespace Attributes

/-- A node's attributes under the policy of its own kind. -/
def of (node : Node) : Attributes := ⟨node, node.kind⟩

/-- A number; zero if neither the node nor the policy has one. -/
def number (a : Attributes) (path : String) : Float :=
  match a.node.number? path with
  | some x => x
  | none =>
      match fallback? a.kind path with
      | some (.number x) => x
      | _ => 0

/-- A text; empty if neither the node nor the policy has one. -/
def text (a : Attributes) (path : String) : String :=
  match a.node.text? path with
  | some s => s
  | none =>
      match fallback? a.kind path with
      | some (.text s) => s
      | _ => ""

/-- A truth value; false if neither the node nor the policy has one. -/
def flag (a : Attributes) (path : String) : Bool :=
  match a.node.flag? path with
  | some b => b
  | none =>
      match fallback? a.kind path with
      | some (.flag b) => b
      | _ => false

/-- A text that the node itself sets and that is not blank. -/
def ownText? (a : Attributes) (path : String) : Option String :=
  match a.node.text? path with
  | some s => if blankString s then none else some s
  | none => none

/-- A paint that the node itself sets. -/
def ownPaint? (a : Attributes) (path : String) : Option Dart.Paint :=
  (a.node.text? path).bind fun s => Dart.Paint.parse? s.toList

/-- A paint; transparent if neither the node nor the policy has one. -/
def paint (a : Attributes) (path : String) : Dart.Paint :=
  match a.ownPaint? path with
  | some p => p
  | none =>
      match fallback? a.kind path with
      | some (.text s) => (Dart.Paint.parse? s.toList).getD .transparent
      | _ => .transparent

end Attributes

end CanvasFlutter.Widget
