import CanvasFlutter.Canvas.Page
import CanvasFlutter.Route.PageName

/-!
# `CanvasFlutter.Route.Plan` — one route for every page

A route gives a page its path, its file and its class. Pages whose names give the same slug or the
same class are told apart by a number, the least that is free.

## Contents
- **Routes.** `Route`, its file, import line and table entry.
- **Candidates.** `baseSlug`, `baseClass`, `candidate`: what a page would get with a number.
- **Planning.** `Route.choose`, `planRoutes`.
-/

namespace CanvasFlutter

/-! ## Routes -/

/-- Where a page is found in the generated project. -/
structure Route where
  slug : String
  className : String
  deriving DecidableEq, Repr

namespace Route

/-- The folder of all pages. -/
def pagesFolder : String := "lib/pages"

/-- The path that the application navigates to. -/
def path (r : Route) : String := "/" ++ r.slug

/-- The file of the page's source within the project. -/
def file (r : Route) : String := pagesFolder ++ "/" ++ r.slug ++ "/" ++ r.slug ++ "_page.dart"

/-- The import of the page in the routes file. -/
def importLine (r : Route) : String :=
  "import '../pages/" ++ r.slug ++ "/" ++ r.slug ++ "_page.dart';"

/-- The entry of the page in the route table. -/
def tableEntry (r : Route) : String :=
  "'" ++ r.path ++ "': (context) => const " ++ r.className ++ "(),"

/-! ## Candidates -/

/-- The slug of a page before it gets a number; `index` counts from zero. -/
def baseSlug (name : Text) (index : Nat) : Text :=
  let own := PageName.slug name
  if own.isEmpty then "page".toList ++ (toString (index + 1)).toList else own

/-- The class of a page before it gets a number and the ending. -/
def baseClass (name : Text) (index : Nat) : Text :=
  let own := PageName.pascalCase name
  let base := if own.isEmpty then PageName.pascalCase (baseSlug name index) else own
  match base with
  | first :: _ => if first.isDigit then "Page".toList ++ base else base
  | [] => []

/-- The route of a page with a number; the number one is left out. -/
def candidate (name : Text) (index number : Nat) : Route :=
  let slug := baseSlug name index
  let base := baseClass name index
  if number = 1 then
    ⟨String.ofList slug, String.ofList (base ++ "Page".toList)⟩
  else
    let digits := (toString number).toList
    ⟨String.ofList (slug ++ '_' :: digits), String.ofList (base ++ digits ++ "Page".toList)⟩

/-! ## Planning -/

/-- Whether a route shares neither its slug nor its class with those before it. -/
def isFree (before : List Route) (r : Route) : Bool :=
  before.all fun other => other.slug ≠ r.slug && other.className ≠ r.className

/-- The route with the least number that is free. Each route before it takes at most one number by
its slug and one by its class, so one more number than twice their count always holds a free one. -/
def choose (before : List Route) (name : Text) (index : Nat) : Route :=
  let numbers := (List.range (2 * before.length + 1)).map (· + 1)
  let free := numbers.find? fun number => isFree before (candidate name index number)
  candidate name index (free.getD 1)

/-- The routes of further pages, after those before them. -/
def planAfter (before : List Route) : List String → List Route
  | [] => []
  | name :: rest =>
      let r := choose before name.toList before.length
      r :: planAfter (before ++ [r]) rest

end Route

/-- The routes of pages with these names, in page order. -/
def planNames (names : List String) : List Route := Route.planAfter [] names

/-- The routes of pages, in page order. -/
def planRoutes (pages : List Page) : List Route := planNames (pages.map Page.name)

/-- There is one route for each page. -/
theorem Route.length_planAfter (before : List Route) (names : List String) :
    (planAfter before names).length = names.length := by
  induction names generalizing before with
  | nil => rfl
  | cons name rest ih => simp [planAfter, ih]

theorem length_planRoutes (pages : List Page) : (planRoutes pages).length = pages.length := by
  simp [planRoutes, planNames, Route.length_planAfter]

end CanvasFlutter
