import CanvasFlutter.Error
import CanvasFlutter.Workspace.Path

/-!
# `CanvasFlutter.Workspace.Tree` — folders, files and links as a value

All that commands do to files they do to a `Workspace`: a tree of folders and the folder that
relative paths start from. A place in the tree is the list of names that leads to it from the root.

An entry has one place: that a file may have several (hard links) is left out, and so are rights,
owners, times, devices and the space that is left. A working folder that has been removed leads
nowhere.

## Contents
- **Entries.** `Entry`, `setChild`, `eraseChild`.
- **Places.** `Entry.get?`, `Entry.changeFolder`, `Entry.put`, `Entry.erase`.
- **Resolution.** `Workspace`, `Spot`, `Workspace.resolve`: what a path leads to, through links
  and parents.
-/

namespace CanvasFlutter

/-! ## Entries -/

/-- Something in a tree. -/
inductive Entry where
  | file (content : ByteArray)
  /-- Another name for what a path leads to. -/
  | link (target : String)
  /-- Entries by name, in ascending order of names. -/
  | folder (children : List (String × Entry))

/-- What an entry is. -/
inductive EntryKind where
  | file
  | link
  | folder
  deriving DecidableEq, Repr

namespace Entry

/-- What an entry is. -/
def kind : Entry → EntryKind
  | .file _ => .file
  | .link _ => .link
  | .folder _ => .folder

/-- The children with one of them set, in order of names. -/
def setChild (name : String) (entry : Entry) : List (String × Entry) → List (String × Entry)
  | [] => [(name, entry)]
  | (n, e) :: rest =>
      if name = n then (name, entry) :: rest
      else if name < n then (name, entry) :: (n, e) :: rest
      else (n, e) :: setChild name entry rest

/-- The children other than one. -/
def eraseChild (name : String) (children : List (String × Entry)) : List (String × Entry) :=
  children.filter (·.1 ≠ name)

/-! ## Places -/

/-- The entry at a place below this one. -/
def get? : List String → Entry → Option Entry
  | [], entry => some entry
  | name :: rest, .folder children => (children.lookup name).bind (get? rest)
  | _ :: _, _ => none

/-- The tree with a change made to the children of the folder at a place. -/
def changeFolder (change : List (String × Entry) → List (String × Entry)) :
    List String → Entry → Entry
  | [], .folder children => .folder (change children)
  | name :: rest, .folder children =>
      match children.lookup name with
      | some child => .folder (setChild name (changeFolder change rest child) children)
      | none => .folder children
  | _, entry => entry

/-- The tree with an entry set in the folder at a place. -/
def put (place : List String) (name : String) (entry : Entry) (top : Entry) : Entry :=
  changeFolder (setChild name entry) place top

/-- The tree without an entry of the folder at a place. -/
def erase (place : List String) (name : String) (top : Entry) : Entry :=
  changeFolder (eraseChild name) place top

end Entry

/-! ## Resolution -/

/-- A tree and where relative paths start. -/
structure Workspace where
  top : Entry
  here : List String

/-- What a path leads to. -/
inductive Spot where
  /-- An entry at a place. -/
  | taken (place : List String) (entry : Entry)
  /-- A free name in the folder at a place; `asFolder` if the path ends in a slash. -/
  | free (place : List String) (name : String) (asFolder : Bool)

/-- How many bytes a name may have. -/
def maxNameBytes : Nat := 255

/-- How many bytes a path may have. -/
def maxPathBytes : Nat := 4095

/-- How many links a path may go through. -/
def maxLinks : Nat := 40

namespace Workspace

/-- Where a path starts. -/
def start (w : Workspace) (path : String) : List String :=
  if Path.isAbsolute path then [] else w.here

/-- What the remaining names of a path lead to from a place; a link at the end counts for what it
leads to if `follow` says so. -/
def walk (w : Workspace) (follow : Bool) (links : Nat) (place : List String)
    (names : List String) : Except FileFault Spot :=
  match names with
  | [] =>
      match w.top.get? place with
      | some entry => .ok (.taken place entry)
      | none => .error .notFound
  | name :: rest =>
      match w.top.get? place with
      | some (.folder children) =>
          if name = "" ∨ name = "." then walk w follow links place rest
          else if name = ".." then walk w follow links place.dropLast rest
          else if maxNameBytes < name.utf8ByteSize then .error .nameTooLong
          else
            match children.lookup name with
            | none =>
                if rest.all (· = "") then .ok (.free place name (!rest.isEmpty))
                else .error .notFound
            | some (.link target) =>
                if rest.isEmpty && !follow then .ok (.taken (place ++ [name]) (.link target))
                else
                  match links with
                  | 0 => .error .tooManyLinks
                  | links + 1 =>
                      let place := if Path.isAbsolute target then [] else place
                      walk w follow links place (Path.parts target ++ rest)
            | some _ => walk w follow links (place ++ [name]) rest
      | some _ => .error .notDirectory
      | none => .error .notFound
termination_by (links, names.length)

/-- What a path leads to. -/
def resolve (w : Workspace) (follow : Bool) (path : String) : Except FileFault Spot :=
  if path.isEmpty then .error .notFound
  else if path.toList.contains '\x00' then .error .nulInName
  else if maxPathBytes < path.utf8ByteSize then .error .nameTooLong
  else walk w follow maxLinks (w.start path) (Path.parts path)

/-- The entry that a path leads to, through links. -/
def entry? (w : Workspace) (path : String) : Option Entry :=
  match w.resolve true path with
  | .ok (.taken _ entry) => some entry
  | _ => none

/-- Whether a path leads to something. -/
def exists? (w : Workspace) (path : String) : Bool := (w.entry? path).isSome

/-- Whether a path leads to a folder. -/
def isFolder (w : Workspace) (path : String) : Bool :=
  match w.entry? path with
  | some (.folder _) => true
  | _ => false

/-- Whether a path ends at a link. -/
def isLink (w : Workspace) (path : String) : Bool :=
  match w.resolve false path with
  | .ok (.taken _ (.link _)) => true
  | _ => false

/-- Whether two paths lead to one entry. -/
def isSame (w : Workspace) (path other : String) : Bool :=
  match w.resolve true path, w.resolve true other with
  | .ok (.taken place _), .ok (.taken place' _) => place = place'
  | _, _ => false

end Workspace

end CanvasFlutter
