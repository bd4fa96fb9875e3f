import CanvasFlutter.Decimal.Binary
import CanvasFlutter.Decimal.Read
import CanvasFlutter.Json

/-!
# `CanvasFlutter.Canvas.Node` — component nodes and their attributes

A canvas is a forest of nodes. A node keeps its attributes as JSON, so that a malformed attribute
never spoils the node; the accessors read an attribute as text, number, truth value or list, and
take one that does not fit for a missing one.

## Contents
- **Kinds.** `Kind`, `Kind.ofTag`, `Kind.carriesState`.
- **Nodes.** `Node`, and `Node.ofJson?`, which gives state keys to the nodes that need one.
- **Attributes.** `Node.attr?` follows a dotted path; `text?`, `number?`, `flag?`, `list`.
- **Order.** `Node.preorder` lists a forest in document order.
-/

namespace CanvasFlutter

/-! ## Kinds -/

/-- What a node is drawn as. -/
inductive Kind where
  | headerBar
  | label
  | iconAction
  | textAction
  | textInput
  | toggleBox
  | choiceDropdown
  | panel
  /-- A tag that names no kind. -/
  | unknown (tag : String)
  deriving DecidableEq, Repr

/-- The kind that a tag names. -/
def Kind.ofTag (tag : String) : Kind :=
  match tag with
  | "AppBar" => .headerBar
  | "Text" => .label
  | "IconButton" => .iconAction
  | "TextButton" => .textAction
  | "TextField" => .textInput
  | "Checkbox" => .toggleBox
  | "DropdownButton" => .choiceDropdown
  | "Dropdown" => .choiceDropdown
  | "Container" => .panel
  | other => .unknown other

/-- The kinds whose nodes have a value that the user changes. -/
def Kind.carriesState : Kind → Bool
  | .toggleBox => true
  | .choiceDropdown => true
  | _ => false

/-- What the state key of a node without an identifier begins with. -/
def Kind.keyStem? : Kind → Option String
  | .toggleBox => some "checkbox_"
  | .choiceDropdown => some "dropdown_"
  | _ => none

/-- A kind has a key stem exactly if it carries state. -/
theorem Kind.isSome_keyStem? (k : Kind) : k.keyStem?.isSome = k.carriesState := by
  cases k <;> rfl

/-! ## Nodes -/

/-- A node of a canvas. -/
structure Node where
  kind : Kind
  /-- The state key; a node whose kind carries state always has one. -/
  id : Option String
  attrs : List (String × Json)
  children : List Node

namespace Node

/-- The kind of an object with these members. -/
def kindOf (members : List (String × Json)) : Kind :=
  match Json.member? "type" members with
  | some (.string tag) => Kind.ofTag tag
  | _ => .unknown ""

/-- The identifier of an object with these members: its own, or else one made of its position. -/
def idOf (members : List (String × Json)) (position : String) : Option String :=
  let made := (kindOf members).keyStem?.map (· ++ position)
  match Json.member? "id" members with
  | some (.string s) => if s.isEmpty then made else some s
  | some (.number n) => some n.text
  | _ => made

/-- The position of a child. -/
def childPosition (position : String) (index : Nat) : String :=
  position ++ "_" ++ toString index

mutual

/-- The node that a value describes at a position such as `0_3_1`; `none` unless it is an object. -/
def ofJson? : Json → String → Option Node
  | .object members, position =>
      some ⟨kindOf members, idOf members position, Json.eraseMember "children" members,
        childrenOf members position⟩
  | _, _ => none

/-- The children that an object's members describe. -/
def childrenOf : List (String × Json) → String → List Node
  | [], _ => []
  | (name, .array items) :: rest, position =>
      if name = "children" then ofItems items position 0 else childrenOf rest position
  | (name, _) :: rest, position => if name = "children" then [] else childrenOf rest position

/-- The nodes that items describe, numbered from an index; an item that is no object is left out
but counted. -/
def ofItems : List Json → String → Nat → List Node
  | [], _, _ => []
  | item :: rest, position, index =>
      match ofJson? item (childPosition position index) with
      | some node => node :: ofItems rest position (index + 1)
      | none => ofItems rest position (index + 1)

end

/-- The key of a node's value; empty for a node without an identifier. -/
def stateKey (node : Node) : String := node.id.getD ""

/-! ## Attributes -/

/-- The parts of a dotted path. -/
def pathParts (path : String) : List String :=
  (path.toList.splitOn '.').map String.ofList

/-- The value that a path leads to within members. -/
def follow? : List String → List (String × Json) → Option Json
  | [], _ => none
  | [part], members => Json.member? part members
  | part :: rest, members =>
      match Json.member? part members with
      | some (.object inner) => follow? rest inner
      | _ => none

/-- The attribute at a dotted path such as `decoration.border.color`; null counts as missing. -/
def attr? (node : Node) (path : String) : Option Json :=
  match follow? (pathParts path) node.attrs with
  | some .null => none
  | value => value

/-- Whether the attribute is there. -/
def hasAttr (node : Node) (path : String) : Bool := (node.attr? path).isSome

/-- The attribute as text; numbers and truth values have a text too. -/
def text? (node : Node) (path : String) : Option String := (node.attr? path).bind Json.text?

/-- The attribute as a finite number; text that reads as one is a number too. -/
def number? (node : Node) (path : String) : Option Float :=
  let value :=
    match node.attr? path with
    | some (.number n) => some n.toFloat
    | some (.string s) => Decimal.readFinite? (Text.trim s.toList)
    | _ => none
  value.filter Decimal.isFinite

/-- The attribute as a truth value. -/
def flag? (node : Node) (path : String) : Option Bool :=
  match node.attr? path with
  | some (.bool b) => some b
  | some (.string "true") => some true
  | some (.string "false") => some false
  | _ => none

/-- The attribute as a list of texts; items without a text are left out. -/
def list (node : Node) (path : String) : List String :=
  match node.attr? path with
  | some (.array items) => items.filterMap Json.text?
  | _ => []

/-! ## Document order -/

mutual

/-- A node and all below it, each before its children. -/
def preorder : Node → List Node
  | ⟨kind, id, attrs, children⟩ => ⟨kind, id, attrs, children⟩ :: preorderAll children

/-- The nodes of a forest, each before its children. -/
def preorderAll : List Node → List Node
  | [] => []
  | node :: rest => preorder node ++ preorderAll rest

end

end Node

end CanvasFlutter
