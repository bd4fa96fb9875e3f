import CanvasFlutter.Workspace.Tree

/-!
# `CanvasFlutter.Workspace.Files` — file operations

What a POSIX system does, on a tree that is a value. An operation that fails may have done part of
its work, so each gives the tree it leaves behind whether it fails or not. It fails for what is or
is not in the tree and for nothing else: faults of rights, of space and of the disk itself, which
can stop a real operation at any point, are left out.

## Contents
- **Actions.** `FileAction`, its `runOn`, `mapError` and `attempt`; `look`, `change`, `resolve`.
- **Reading.** `readBytes`, `readText`, `listFolder`.
- **Writing.** `writeBytes`, `writeText`, `makeFolder`, `makeFolders`, `copyFile`.
- **Removing.** `removeFile`, `removeFolder`, `removeTree`, `renameFile`.
-/

namespace CanvasFlutter

/-! ## Actions -/

/-- Something done to a workspace that may fail. -/
abbrev FileAction (ε α : Type) := ExceptT ε (StateM Workspace) α

namespace FileAction

/-- The result of an action and the workspace after it. -/
def runOn {ε α : Type} (action : FileAction ε α) (w : Workspace) : Except ε α × Workspace :=
  action.run.run w

/-- An action whose failure has another cause. -/
def mapError {ε δ α : Type} (f : ε → δ) (action : FileAction ε α) : FileAction δ α :=
  ExceptT.mk do
    match ← action.run with
    | .ok a => return .ok a
    | .error e => return .error (f e)

/-- The result of an action, be it a failure. -/
def attempt {ε δ α : Type} (action : FileAction ε α) : FileAction δ (Except ε α) :=
  ExceptT.mk do return .ok (← action.run)

/-- A look at the workspace. -/
def look {ε α : Type} (f : Workspace → α) : FileAction ε α := do return f (← get)

/-- A change of the tree. -/
def change {ε : Type} (f : Entry → Entry) : FileAction ε Unit :=
  modify fun w => { w with top := f w.top }

/-- What a path leads to. -/
def resolve (follow : Bool) (path : String) : FileAction FileFault Spot := do
  match (← get).resolve follow path with
  | .ok spot => return spot
  | .error fault => throw fault

/-! ## Reading -/

/-- The content of a file. -/
def readBytes (path : String) : FileAction FileFault ByteArray := do
  match ← resolve true path with
  | .taken _ (.file content) => return content
  | .taken _ (.folder _) => throw .isDirectory
  | .taken _ (.link _) => throw .tooManyLinks
  | .free _ _ _ => throw .notFound

/-- The text in a file. -/
def readText (path : String) : FileAction FileFault String := do
  match String.fromUTF8? (← readBytes path) with
  | some text => return text
  | none => throw .invalidText

/-- The names in a folder and what they name, in order of names. -/
def listFolder (path : String) : FileAction FileFault (List (String × EntryKind)) := do
  match ← resolve true path with
  | .taken _ (.folder children) => return children.map fun (name, entry) => (name, entry.kind)
  | .taken _ _ => throw .notDirectory
  | .free _ _ _ => throw .notFound

/-! ## Writing -/

/-- An entry put at a place that is not the root. -/
def putAt (place : List String) (entry : Entry) : FileAction FileFault Unit :=
  match place.getLast? with
  | some name => change (Entry.put place.dropLast name entry)
  | none => throw .isDirectory

/-- A file with this content and nothing else, new or not. -/
def writeBytes (path : String) (content : ByteArray) : FileAction FileFault Unit := do
  match ← resolve true path with
  | .taken place (.file _) => putAt place (.file content)
  | .taken _ (.folder _) => throw .isDirectory
  | .taken _ (.link _) => throw .tooManyLinks
  | .free _ _ true => throw .isDirectory
  | .free place name false => change (Entry.put place name (.file content))

/-- A file with this text and nothing else. -/
def writeText (path text : String) : FileAction FileFault Unit := writeBytes path text.toUTF8

/-- A new folder. -/
def makeFolder (path : String) : FileAction FileFault Unit := do
  match ← resolve false path with
  | .taken _ _ => throw .exists
  | .free place name _ => change (Entry.put place name (.folder []))

/-- The first of some paths as a folder, given each path's parents after it. -/
def makeFirst : List String → FileAction FileFault Unit
  | [] => throw .notFound
  | path :: parents => do
      if path.isEmpty then return ()
      match ← attempt (makeFolder path) with
      | .ok () => return ()
      | .error .notFound =>
          makeFirst parents
          match ← attempt (makeFolder path) with
          | .ok () => return ()
          | .error fault => unless ← look (·.isFolder path) do throw fault
      | .error fault => unless ← look (·.isFolder path) do throw fault

/-- A folder and all folders that lead to it, as far as they are not there. -/
def makeFolders (path : String) : FileAction FileFault Unit := makeFirst (Path.ancestors path)

/-- A file with the content of another one. A file that is copied onto itself is emptied before
any of it is read. -/
def copyFile (source target : String) : FileAction FileFault Unit := do
  let content ← readBytes source
  let itself ← look (·.isSame source target)
  writeBytes target (if itself then .empty else content)

/-! ## Removing -/

/-- An entry taken away from a place that is not the root. -/
def eraseAt (place : List String) : FileAction FileFault Unit :=
  match place.getLast? with
  | some name => change (Entry.erase place.dropLast name)
  | none => throw .busy

/-- A file or link taken away. -/
def removeFile (path : String) : FileAction FileFault Unit := do
  match ← resolve false path with
  | .taken _ (.folder _) => throw .isDirectory
  | .taken place _ => eraseAt place
  | .free _ _ _ => throw .notFound

/-- The last name of a path that is not empty. -/
def lastName (path : String) : String :=
  ((Path.parts path).filter (!·.isEmpty)).getLast?.getD ""

/-- An empty folder taken away by its path. A path that ends in a dot or two names no place in a
folder, and one that goes on behind a link with nothing but a slash names the link. -/
def removeFolder (path : String) : FileAction FileFault Unit := do
  match ← resolve false path with
  | .taken place (.folder children) =>
      if lastName path = "." then throw .invalidArgument
      else if lastName path = ".." then throw .notEmpty
      else if ← look (·.isLink (Path.dropSlashes path)) then throw .notDirectory
      else if children.isEmpty then eraseAt place
      else throw .notEmpty
  | .taken _ _ => throw .notDirectory
  | .free _ _ _ => throw .notFound

/-- A folder and all in it taken away; a link is taken away by itself. The folder is emptied first
and then removed by its path, so it stays, without an error, if its path led through what was in
it. -/
def removeTree (path : String) : FileAction FileFault Unit := do
  match ← resolve false path with
  | .taken _ (.file _) => throw .notDirectory
  | .taken place (.link _) => eraseAt place
  | .taken place (.folder _) =>
      change (Entry.changeFolder (fun _ => []) place)
      match ← attempt (removeFolder path) with
      | .ok () => return ()
      | .error .notFound => return ()
      | .error fault => throw fault
  | .free _ _ _ => throw .notFound

/-- Why no file can be moved to the path of a folder: a path that ends in a slash asks for a folder
to be moved, and one that ends in a dot or two names no place in a folder. -/
def folderFault (path : String) : FileFault :=
  if lastName path ∈ ["", ".", ".."] then .busy
  else if Text.endsWith '/' path.toList then .notDirectory
  else .isDirectory

/-- A file moved to a path, in the place of a file or link there. -/
def renameFile (source target : String) : FileAction FileFault Unit := do
  match ← resolve false source with
  | .free _ _ _ => throw .notFound
  | .taken origin entry =>
      match ← resolve false target with
      | .taken _ (.folder _) => throw (folderFault target)
      | .taken place _ =>
          unless place = origin do
            eraseAt origin
            putAt place entry
      | .free _ _ true => throw .notDirectory
      | .free place name false =>
          eraseAt origin
          change (Entry.put place name entry)

end FileAction

end CanvasFlutter
