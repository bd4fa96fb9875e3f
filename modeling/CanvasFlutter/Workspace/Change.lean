import CanvasFlutter.Workspace.Tree

/-!
# `CanvasFlutter.Workspace.Change` — from one tree to another

What has to be done to a tree so that it becomes another one. Only what differs is named, so a
command that leaves a tree alone asks for nothing. No command makes links, so a new link is no
change.

## Contents
- **Changes.** `Change`.
- **Making.** `Entry.making`: an entry where nothing is.
- **Comparing.** `Entry.changes`: one entry in the place of another.
-/

namespace CanvasFlutter

/-! ## Changes -/

/-- A change at a place of a tree. -/
inductive Change where
  | remove (place : List String)
  | makeFolder (place : List String)
  | write (place : List String) (content : ByteArray)

namespace Entry

/-! ## Making -/

mutual

/-- The changes that make an entry at a free place, a folder before what it holds. -/
def making (place : List String) : Entry → List Change
  | .file content => [.write place content]
  | .link _ => []
  | .folder children => .makeFolder place :: makingAll place children

/-- The changes that make the children of a folder. -/
def makingAll (place : List String) : List (String × Entry) → List Change
  | [] => []
  | (name, entry) :: rest => making (place ++ [name]) entry ++ makingAll place rest

end

/-! ## Comparing -/

/-- The changes that take away the children of a folder that it is to have no longer. -/
def removing (place : List String) (old new : List (String × Entry)) : List Change :=
  (old.filter fun child => (new.lookup child.1).isNone).map fun child =>
    .remove (place ++ [child.1])

mutual

/-- The changes that put an entry in the place of an old one. -/
def changes (place : List String) (old : Entry) : Entry → List Change
  | .file content =>
      match old with
      | .file before => if before = content then [] else [.write place content]
      | _ => [.remove place, .write place content]
  | .link _ => []
  | .folder children =>
      match old with
      | .folder before => removing place before children ++ changesAll place before children
      | _ => .remove place :: .makeFolder place :: makingAll place children

/-- The changes that give a folder these children, without taking any away. -/
def changesAll (place : List String) (old : List (String × Entry)) :
    List (String × Entry) → List Change
  | [] => []
  | (name, entry) :: rest =>
      (match old.lookup name with
        | some before => changes (place ++ [name]) before entry
        | none => making (place ++ [name]) entry)
      ++ changesAll place old rest

end

end Entry

end CanvasFlutter
