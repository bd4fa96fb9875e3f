import CanvasFlutter.RouteTable.Scanner
import CanvasFlutter.Text.Word

/-!
# `CanvasFlutter.RouteTable.Pattern` — what a route table and a page import look like

Each recogniser takes the text in front of it and gives the text that follows what it recognised.
No choice in these patterns ever has to be taken back: after each part, the next character alone
decides.

## Contents
- **Parts.** `blanks`, `blanks?`, `word?`, `inOrder?`.
- **Table.** `tableHeader?`: a variable of the type `Map<String, WidgetBuilder>`, or one that is
  set to a map literal of these types, up to the opening brace.
- **Search.** `findTable?`: the first header that begins in code, out of those that do not overlap.
- **Imports.** `isPageImport`: the import of a file in the folder of pages.
-/

namespace CanvasFlutter.Pattern

/-! ## Parts -/

/-- A recogniser: the text that follows what it recognises. -/
abbrev Part := Text → Option Text

/-- Any white space. -/
def blanks (t : Text) : Text := t.dropWhile Text.isWhite

/-- Some white space. -/
def blanks? : Part
  | [] => none
  | c :: rest => if Text.isWhite c then some (blanks rest) else none

/-- Some word characters. -/
def word? : Part
  | [] => none
  | c :: rest => if Text.isWord c then some (rest.dropWhile Text.isWord) else none

/-- The given texts in order, with any white space after each. -/
def inOrder? : List String → Part
  | [], t => some t
  | s :: rest, t => do
      let t ← Text.after? s.toList t
      inOrder? rest (blanks t)

/-! ## The table -/

/-- The types of a route table's keys and values in angle brackets, and any white space after. -/
def types? : Part := inOrder? ["<", "String", ",", "WidgetBuilder", ">"]

/-- The word `const` and white space, or nothing. -/
def optionalConst (t : Text) : Text :=
  match Text.after? "const".toList t with
  | some rest => (blanks? rest).getD t
  | none => t

/-- The types of a map literal, or nothing. -/
def optionalTypes (t : Text) : Text := (types? t).getD t

/-- A variable declared as a map of widget builders and set to a map literal. -/
def typedVariable? : Part := fun t => do
  let t ← Text.after? "Map".toList t
  let t ← inOrder? ["<", "String", ",", "WidgetBuilder"] t
  let t ← Text.after? ['>'] t
  let t ← blanks? t
  let t ← word? t
  let t ← inOrder? ["="] (blanks t)
  Text.after? ['{'] (optionalTypes (optionalConst t))

/-- A variable set to a map literal of widget builders. -/
def typedLiteral? : Part := fun t => do
  let t ← word? t
  let t ← inOrder? ["="] (blanks t)
  let t ← types? (optionalConst t)
  Text.after? ['{'] t

/-- The beginning of a route table, up to its opening brace. -/
def tableHeader? : Part := fun t => typedVariable? t <|> typedLiteral? t

/-! ## The search -/

/-- How many characters stand before what follows the first header that begins in code, given where
the text begins and how many of its characters belong to a header that does not begin in code. -/
def findFrom? : Scanner.State → (inside : Nat) → Text → Option Nat
  | _, _, [] => none
  | state, inside + 1, c :: rest =>
      (findFrom? (state.next c rest.head?) inside rest).map (· + 1)
  | state, 0, c :: rest =>
      let t := c :: rest
      match tableHeader? t with
      | some after =>
          let length := t.length - after.length
          if state = .code then some length
          else (findFrom? (state.next c rest.head?) (length - 1) rest).map (· + 1)
      | none => (findFrom? (state.next c rest.head?) 0 rest).map (· + 1)

/-- How many characters a text has up to and with the opening brace of its route table. -/
def findTable? (t : Text) : Option Nat := findFrom? .code 0 t

/-! ## Imports -/

/-- A quote of either kind. -/
def isQuote (c : Char) : Bool := c == '\'' || c == '"'

/-- The folder of pages, as seen from the routes file or from the root of a package. -/
def pagesFolder? : Part := fun t =>
  match Text.after? "../pages/".toList t with
  | some rest => some rest
  | none => do
      let t ← Text.after? "package:".toList t
      if (t.takeWhile Text.isAsciiWord).isEmpty then none
      else Text.after? "/pages/".toList (t.dropWhile Text.isAsciiWord)

/-- Whether a statement on one line imports a file in the folder of pages. -/
def isPageImport (statement : Text) : Bool :=
  let rest? : Option Text := do
    let t ← Text.after? "import".toList statement
    let t ← blanks? t
    match t with
    | [] => none
    | c :: t =>
        if isQuote c then do
          let t ← pagesFolder? t
          match t.dropWhile (fun c => !isQuote c) with
          | [] => none
          | _ :: t => Text.after? [';'] (blanks t)
        else none
  rest? == some []

end CanvasFlutter.Pattern
