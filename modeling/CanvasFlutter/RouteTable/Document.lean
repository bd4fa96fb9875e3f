import CanvasFlutter.Error
import CanvasFlutter.PageSource.Assemble
import CanvasFlutter.RouteTable.Pattern

/-!
# `CanvasFlutter.RouteTable.Document` — patching a routes file

A routes file begins with a section of directives: imports and the like, with comments and blank
lines between. Patching puts this run's imports of pages in the place of earlier ones and this
run's entries in the place of what the table held; all else stays.

## Contents
- **Lines.** `codePart`, `isDirectiveStart`, `isComment`.
- **Section.** `Directive`, `readDirectives`: the directives of a file and the lines that follow them.
- **Document.** `RouteDocument`, `RouteDocument.parse`, `withMaterialImport`, `replaceTable`,
  `render`.
- **Patching.** `patchRoutes`.
-/

namespace CanvasFlutter

/-! ## Lines -/

/-- The text up to the first comment. -/
def beforeComment : Scanner.State → Text → Text
  | _, [] => []
  | state, c :: rest =>
      match state.next c rest.head? with
      | .lineComment => []
      | .blockOpening => []
      | next => c :: beforeComment next rest

/-- A line without the comment at its end, trimmed. -/
def codePart (line : Text) : Text := Text.trim (beforeComment .code line)

/-- Whether a trimmed line begins a directive. -/
def isDirectiveStart (line : Text) : Bool :=
  ["import ", "import'", "import\"", "export ", "library ", "part "].any fun start =>
    start.toList.isPrefixOf line

/-- Whether a trimmed line is a comment or goes on with one. -/
def isComment (line : Text) : Bool :=
  ["//", "/*", "*"].any fun start => start.toList.isPrefixOf line

/-- Whether a line ends a statement. -/
def endsStatement (line : Text) : Bool := Text.endsWith ';' (codePart line)

/-! ## The section of directives -/

/-- An entry of the section. -/
inductive Directive where
  | comment (text : Text)
  | statement (text : Text)
  deriving DecidableEq, Repr

namespace Directive

/-- The text of an entry. -/
def text : Directive → Text
  | comment t => t
  | statement t => t

/-- Whether an entry is a comment. -/
def isComment : Directive → Bool
  | comment _ => true
  | statement _ => false

/-- Whether an entry imports a page; its lines are taken as one, without their comments. -/
def isPageImport : Directive → Bool
  | comment _ => false
  | statement t =>
      let parts := ((Text.lines t).map codePart).filter (fun part => !part.isEmpty)
      Pattern.isPageImport (Text.joinWith [' '] parts)

/-- Whether an entry mentions the material library. -/
def isMaterialImport : Directive → Bool
  | comment _ => false
  | statement t => Text.contains "package:flutter/material.dart".toList t

end Directive

/-- The entries of the section and the lines after it, given the lines and what has been read of a
statement that is not ended. The section ends with its last statement: comments, blank lines and an
unended statement after that belong to the lines that follow. -/
def readDirectives : (pending : Option Text) → List Text → List Directive × List Text
  | _, [] => ([], [])
  | some statement, line :: rest =>
      let statement := statement ++ '\n' :: Text.trim line
      if endsStatement (Text.trim line) then
        let (entries, after) := readDirectives none rest
        (.statement statement :: entries, after)
      else readDirectives (some statement) rest
  | none, line :: rest =>
      let trimmed := Text.trim line
      let otherwise (read : List Directive × List Text) (first : Option Directive) :=
        if read.1.isEmpty then ([], line :: rest) else (first.toList ++ read.1, read.2)
      if trimmed.isEmpty then otherwise (readDirectives none rest) none
      else if isDirectiveStart trimmed then
        if endsStatement trimmed then
          let (entries, after) := readDirectives none rest
          (.statement trimmed :: entries, after)
        else otherwise (readDirectives (some trimmed) rest) none
      else if isComment trimmed then otherwise (readDirectives none rest) (some (.comment trimmed))
      else ([], line :: rest)

/-! ## Documents -/

/-- A routes file taken apart. -/
structure RouteDocument where
  /-- Comments ahead of the first directive. -/
  leading : List Directive
  /-- Directives and the comments between them, without the imports of pages. -/
  directives : List Directive
  /-- All that follows, without the blank lines in front. -/
  body : Text
  deriving DecidableEq, Repr

namespace RouteDocument

/-- Each text on a line of its own. -/
def onLines (texts : List Text) : Text := texts.flatMap fun t => t ++ ['\n']

/-- A routes file taken apart. Comments that only imports of pages followed stay with what follows
them. -/
def parse (source : Text) : RouteDocument :=
  let (entries, after) := readDirectives none (Text.pieces source)
  let kept := entries.filter fun entry => !entry.isPageImport
  let afterLeading := kept.dropWhile Directive.isComment
  let moved := (afterLeading.reverse.takeWhile Directive.isComment).reverse
  { leading := kept.takeWhile Directive.isComment
    directives := (afterLeading.reverse.dropWhile Directive.isComment).reverse
    body := onLines (moved.map Directive.text) ++ (after.dropWhile Text.isBlank).flatten }

/-- With the import of the material library first, unless a directive mentions it. -/
def withMaterialImport (d : RouteDocument) : RouteDocument :=
  if d.directives.any Directive.isMaterialImport then d
  else { d with directives := .statement materialImport.toList :: d.directives }

/-- What stands between the braces of a table with these entries. -/
def tableBody (entries : List Text) : Text :=
  let trimmed := (entries.map Text.trim).filter (fun entry => !entry.isEmpty)
  '\n' :: trimmed.flatMap fun entry => ' ' :: ' ' :: (entry ++ ['\n'])

/-- With these entries in the table and nothing else; none if there is no table. -/
def replaceTable? (d : RouteDocument) (entries : List Text) : Option RouteDocument := do
  let opening ← Pattern.findTable? d.body
  let inside := d.body.drop opening
  let length ← Scanner.closingBrace? inside
  return { d with body := d.body.take opening ++ tableBody entries ++ inside.drop length }

/-- The file with these imports after the comments in front. -/
def render (d : RouteDocument) (imports : List Text) : Text :=
  let imports := (imports.map Text.trim).filter (fun line => !line.isEmpty)
  onLines (d.leading.map Directive.text) ++ onLines imports
    ++ onLines (d.directives.map Directive.text) ++ '\n' :: d.body

end RouteDocument

/-! ## Patching -/

/-- A routes file with these imports of pages and these entries in its table. -/
def patchRoutes (existing : Text) (imports entries : List Text) : Except ExportError Text :=
  match (RouteDocument.parse existing).withMaterialImport.replaceTable? entries with
  | some document => .ok (document.render imports)
  | none => .error .routeTableNotFound

end CanvasFlutter
