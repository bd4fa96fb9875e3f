import CanvasFlutter.Text

/-!
# `CanvasFlutter.Workspace.Path` — paths as text

A path is kept as it was written, because messages show it. Joining puts one slash between two
paths; the parent of a path leaves out its last part and what only repeats or marks the folder
itself.

## Contents
- **Parts.** `isAbsolute`, `parts`, `dropSlashes`.
- **Joining.** `join`, `joinAll`.
- **Parents.** `parent?`, `ancestors`.
-/

namespace CanvasFlutter.Path

/-! ## Parts -/

/-- Whether a path starts at the root. -/
def isAbsolute (path : String) : Bool := path.toList.head? == some '/'

/-- The names between the slashes of a path, some of them empty. -/
def parts (path : String) : List String := (path.toList.splitOn '/').map String.ofList

/-- A path without the slashes at its end. -/
def dropSlashes (path : String) : String :=
  String.ofList (path.toList.reverse.dropWhile (· = '/')).reverse

/-! ## Joining -/

/-- A path within a folder; an absolute one is itself. -/
def join (folder path : String) : String :=
  if isAbsolute path || folder.isEmpty then path
  else if Text.endsWith '/' folder.toList then folder ++ path
  else folder ++ "/" ++ path

/-- A path of names within a folder. -/
def joinAll (folder : String) (names : List String) : String := names.foldl join folder

/-! ## Parents -/

/-- A reversed path without the slashes and single dots at its end; a lone root stays, and so does
a dot that is all there is. -/
def dropEnding : Text → Text
  | [] => []
  | c :: rest =>
      if c = '/' then
        match rest with
        | [] => [c]
        | _ => dropEnding rest
      else if c = '.' ∧ rest.head? = some '/' then dropEnding rest
      else c :: rest

/-- The folder that holds what a path leads to; none for the root and for the empty path. -/
def parent? (path : String) : Option String :=
  match dropEnding path.toList.reverse with
  | [] => none
  | ['/'] => none
  | last => some (String.ofList (dropEnding (last.dropWhile (· ≠ '/'))).reverse)

/-- A path and its parents, as far as `fuel` goes. Each parent is shorter than the path. -/
def ancestorsFrom : (fuel : Nat) → String → List String
  | 0, path => [path]
  | fuel + 1, path =>
      match parent? path with
      | some parent => path :: ancestorsFrom fuel parent
      | none => [path]

/-- A path, its parent, the parent of that, and so on. -/
def ancestors (path : String) : List String := ancestorsFrom path.length path

example : join "" "a" = "a" ∧ join "." "a" = "./a" ∧ join "a/" "b" = "a/b" := by decide
example : parent? "a//b" = some "a" ∧ parent? "./a" = some "." ∧ parent? "a" = some "" := by decide
example : ancestors "a/b/" = ["a/b/", "a", ""] := by decide

end CanvasFlutter.Path
