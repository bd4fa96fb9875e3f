import CanvasFlutter.PageSource.Assemble
import CanvasFlutter.Route.Plan

/-!
# `CanvasFlutter.PageSource.Compile` — the sources of a canvas

## Contents
- **Pages.** `GeneratedPage`, `compilePages`: every page of a canvas with its route.
- **Listing.** `compileSource`: the sources of all pages, or of those that a name selects, each
  under a comment with its file.
-/

namespace CanvasFlutter

/-! ## Pages -/

/-- The source of a page and where it goes. -/
structure GeneratedPage where
  route : Route
  source : Text
  deriving DecidableEq

/-- The source of every page, in page order. -/
def compilePages (pages : List Page) : List GeneratedPage :=
  List.zipWith
    (fun route page => ⟨route, assemblePage route.className page.components⟩)
    (planRoutes pages) pages

theorem length_compilePages (pages : List Page) :
    (compilePages pages).length = pages.length := by
  simp [compilePages, length_planRoutes]

/-! ## Listing -/

/-- Why there is no listing. -/
inductive CompileError where
  /-- The text is no canvas. -/
  | canvas (error : ExportError)
  /-- The canvas has no page of this name. -/
  | noPage (wanted : String)
  deriving DecidableEq, Repr

/-- The wording of a compile error. -/
def CompileError.message : CompileError → String
  | .canvas error => error.message
  | .noPage wanted => "No page named '" ++ wanted ++ "' in canvas"

/-- Whether a word selects a page: by its name whatever the case, by its slug or by its path. -/
def selects (wanted : Text) (page : Page) (route : Route) : Bool :=
  Text.equalsIgnoringCase (Text.trim page.name.toList) wanted
    || route.slug.toList == wanted || route.path.toList == wanted

/-- The source of a page under a comment with its file. -/
def GeneratedPage.block (page : GeneratedPage) : Text :=
  "// ".toList ++ page.route.file.toList ++ '\n' :: page.source

/-- The blocks of pages with a line feed between. -/
def listing (pages : List GeneratedPage) : Text :=
  Text.joinWith ['\n'] (pages.map GeneratedPage.block)

/-- The pages that a word selects, in page order. -/
def selectPages (wanted : Text) (pages : List Page) : List GeneratedPage :=
  ((compilePages pages).zip pages).filterMap fun (generated, page) =>
    if selects wanted page generated.route then some generated else none

/-- The listing of a canvas text, of all pages or of those that a word selects. -/
def compileSource (canvas : String) (page : Option String) : Except CompileError Text :=
  match parsePages canvas with
  | .error error => .error (.canvas error)
  | .ok pages =>
      match page with
      | none => .ok (listing (compilePages pages))
      | some word =>
          let wanted := Text.trim word.toList
          match selectPages wanted pages with
          | [] => .error (.noPage (String.ofList wanted))
          | selected => .ok (listing selected)

end CanvasFlutter
