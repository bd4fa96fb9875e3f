import CanvasFlutter.Command.Footprint
import CanvasFlutter.Workspace.Change

/-!
# `CanvasFlutter.Main` — the program

Reads from the disk what a command looks at, lets the command work on that as a value, puts what
has changed back on the disk and prints.

## Contents
- **Reading.** `snapshot`: footprints as a workspace.
- **Writing.** `carryOut`: a change.
- **Printing.** `say`: the output of a command.
- **Running.** `perform`, `watchFor`, `answer`, `main`.
-/

namespace CanvasFlutter.Disk

/-! ## Reading -/

/-- The path of a place. -/
def pathOf (place : List String) : String := "/" ++ "/".intercalate place

/-- What is at a place, without following a link. -/
def typeAt (place : List String) : IO (Option IO.FS.FileType) := do
  let entry : IO.FS.DirEntry := ⟨"/", pathOf place⟩
  match ← entry.path.symlinkMetadata.toBaseIO with
  | .ok info => return some info.type
  | .error _ => return none

/-- Where a link leads to; one that leads nowhere leads to itself. -/
def linkTarget (place : List String) : IO String := do
  match ← (IO.FS.realPath (pathOf place)).toBaseIO with
  | .ok target => return target.toString
  | .error _ => return pathOf place

/-- The children of the folder at a place, with all below them. -/
partial def children (place : List String) : IO (List (String × Entry)) := do
  let folder : IO.FS.DirEntry := ⟨"/", pathOf place⟩
  let mut found := []
  for child in ← folder.path.readDir do
    let inside := place ++ [child.fileName]
    match ← typeAt inside with
    | some .dir => found := Entry.setChild child.fileName (.folder (← children inside)) found
    | some .file =>
        found := Entry.setChild child.fileName (.file (← IO.FS.readBinFile (pathOf inside))) found
    | some .symlink =>
        found := Entry.setChild child.fileName (.link (← linkTarget inside)) found
    | _ => pure ()
  return found

/-- A tree with an entry set at a place. -/
def put (place : List String) (entry : Entry) (top : Entry) : Entry :=
  match place.getLast? with
  | some name => Entry.put place.dropLast name entry top
  | none => entry

/-- A tree with what the names of a path lead to on the disk. -/
partial def readNames (whole : Bool) (links : Nat) (place : List String) (top : Entry) :
    List String → IO Entry
  | [] => do
      match whole, top.get? place with
      | true, some (.folder _) => return put place (.folder (← children place)) top
      | _, _ => return top
  | name :: rest => do
      if name = "" ∨ name = "." then readNames whole links place top rest
      else if name = ".." then readNames whole links place.dropLast top rest
      else
        let inside := place ++ [name]
        match ← typeAt inside with
        | none => return top
        | some .dir =>
            let known := (top.get? inside).isSome
            readNames whole links inside (if known then top else put inside (.folder []) top) rest
        | some .symlink =>
            let target ← linkTarget inside
            let top := put inside (.link target) top
            if links = 0 then return top
            else readNames whole (links - 1) [] top (Path.parts target ++ rest)
        | some _ => return put inside (.file (← IO.FS.readBinFile (pathOf inside))) top

/-- The part of the disk that footprints cover. -/
def snapshot (footprints : List Footprint) : IO Workspace := do
  let folder := (← IO.currentDir).toString
  let here := (Path.parts folder).filter (· ≠ "")
  let mut top ← readNames false 0 [] (.folder []) here
  for f in footprints do
    let start := if Path.isAbsolute f.path then [] else here
    top ← readNames f.whole maxLinks start top (Path.parts f.path)
  return ⟨top, here⟩

/-! ## Writing -/

/-- Makes a change on the disk. -/
def carryOut : Change → IO Unit
  | .remove place => do
      match ← typeAt place with
      | some .dir => IO.FS.removeDirAll (pathOf place)
      | _ => IO.FS.removeFile (pathOf place)
  | .makeFolder place => IO.FS.createDir (pathOf place)
  | .write place content => IO.FS.writeBinFile (pathOf place) content

/-! ## Printing -/

/-- A span of milliseconds in seconds with two places. -/
def seconds (span : Nat) : String :=
  let hundredths := (span + 5) / 10
  let places := toString (hundredths % 100)
  toString (hundredths / 100) ++ "." ++ (if places.length < 2 then "0" ++ places else places) ++ "s"

/-- Prints what a command has said since a moment. -/
def say (start : Nat) (output : List Output) : IO Unit := do
  for piece in output do
    match piece with
    | .text s => IO.print s
    | .elapsed => IO.print (seconds ((← IO.monoMsNow) - start))
    | .digest hex => IO.print hex
    | .warning s => IO.eprint s
  (← IO.getStdout).flush

/-! ## Running -/

/-- Lets an action work on what footprints cover. -/
def perform (footprints : List Footprint) (action : CommandAction Unit) :
    IO (Except CommandError Unit) := do
  let start ← IO.monoMsNow
  let before ← snapshot footprints
  let (result, after) := action.runOn before
  for change in Entry.changes [] before.top after.workspace.top do
    carryOut change
  say start after.output
  return result

/-- What tells one state of a file from another. -/
def stamp (path : String) : IO (Option (Int × UInt32 × UInt64)) := do
  let entry : IO.FS.DirEntry := ⟨".", path⟩
  match ← entry.path.metadata.toBaseIO with
  | .ok info => return some (info.modified.sec, info.modified.nsec, info.byteSize)
  | .error _ => return none

/-- Exports a room at every change of its canvas, when no other has followed for a while. -/
partial def watchFor (config : Config) (room : String) (path : String)
    (seen : Option (Int × UInt32 × UInt64)) : IO Unit := do
  IO.sleep 200
  let now ← stamp path
  if now = seen then watchFor config room path seen
  else
    IO.sleep 200
    let next ← stamp path
    if next = now then
      let _ ← perform (CommandLine.Request.exportFootprint config room)
        (Command.exportAgain config room)
      watchFor config room path next
    else watchFor config room path seen

/-- The configuration of a request, if it can be read. -/
def configOf (request : CommandLine.Request) : IO (Option Config) := do
  match request.configOption? with
  | none => return some {}
  | some option =>
      let before ← snapshot request.settings
      return ((Config.loadOrDefault option).runOn before).1.toOption

/-- Does what a request asks for; gives the exit code. -/
def answer (request : CommandLine.Request) : IO UInt32 := do
  let config ← configOf request
  let footprints := (config.map fun config => request.footprint config).getD []
  match ← perform (footprints ++ request.settings) (CommandLine.runRequest request) with
  | .error error => do
      IO.eprintln ("error: " ++ error.message)
      return 1
  | .ok () => do
      match request, config with
      | .watch room _, some config =>
          let path := (canvasPath? config.canvasesFolder room).getD room
          watchFor config room path (← stamp path)
      | _, _ => pure ()
      return 0

end CanvasFlutter.Disk

/-- Does what the arguments ask for; gives the exit code. -/
def main (args : List String) : IO UInt32 := do
  match CanvasFlutter.CommandLine.parse args with
  | some request =>
      try CanvasFlutter.Disk.answer request
      catch fault => do
        IO.eprintln ("error: " ++ toString fault)
        return 1
  | none => do
      IO.eprint CanvasFlutter.CommandLine.usage
      return 2
