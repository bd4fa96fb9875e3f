import CanvasFlutter.Canvas.Node
import CanvasFlutter.Error
import CanvasFlutter.Json.Read

/-!
# `CanvasFlutter.Canvas.Page` — the pages of a canvas

A canvas is an object with an array `pages`, or that array alone. A page without a name is named
by its number.

## Contents
- **Pages.** `Page`, `Page.ofJson`, `pagesOfJson`, `parsePages`.
- **Rooms.** `loadPages` reads the canvas that a room's text holds.
-/

namespace CanvasFlutter

/-! ## Pages -/

/-- A page of a canvas. -/
structure Page where
  name : String
  components : List Node

/-- The name of a page: its own unless that is blank, or else one made of its number. -/
def Page.nameOf (members : List (String × Json)) (index : Nat) : String :=
  let made := "page" ++ toString (index + 1)
  match Json.member? "name" members with
  | some (.string name) => if blankString name then made else name
  | _ => made

/-- The page that a value describes, at an index counted from zero. -/
def Page.ofJson (index : Nat) : Json → Except ExportError Page
  | .object members =>
      let items := ((Json.member? "components" members).bind Json.items?).getD []
      .ok ⟨Page.nameOf members index, Node.ofItems items (toString index) 0⟩
  | _ => .error (.malformedCanvas (.pageNotObject (index + 1)))

/-- The pages that items describe, numbered from an index; the first that is no page decides. -/
def pagesOfItems (index : Nat) : List Json → Except ExportError (List Page)
  | [] => .ok []
  | item :: rest => do
      let page ← Page.ofJson index item
      let pages ← pagesOfItems (index + 1) rest
      return page :: pages

/-- The pages that a value describes. -/
def pagesOfJson : Json → Except ExportError (List Page)
  | .array items => pagesOfItems 0 items
  | .object members =>
      match (Json.member? "pages" members).bind Json.items? with
      | some items => pagesOfItems 0 items
      | none => .error (.malformedCanvas .missingPages)
  | _ => .error (.malformedCanvas .notPages)

/-- The pages that a canvas text describes. -/
def parsePages (canvas : String) : Except ExportError (List Page) :=
  match Json.parse? canvas with
  | some value => pagesOfJson value
  | none => .error (.malformedCanvas .invalidJson)

/-! ## Rooms -/

/-- The pages of a room whose canvas text is given, if it has one that is not blank. -/
def loadPages (room : String) (canvas : Option String) : Except ExportError (List Page) :=
  match canvas with
  | some text => if blankString text then .error (.noCanvas room) else parsePages text
  | none => .error (.noCanvas room)

end CanvasFlutter
