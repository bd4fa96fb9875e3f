import CanvasFlutter.Export.Config
import CanvasFlutter.Export.Package

/-!
# `CanvasFlutter.Export.Room` — exporting the canvas of a room

## Contents
- **Stores.** `Store`; `isRoomCode` and `Store.ofFolder`, a folder with one file for each room.
- **Exporting.** `ExportReport`, `exportRoom`: the canvas is read and compiled before anything is
  written, and the staging folder is gone afterwards, be it a failure.
-/

namespace CanvasFlutter

open Package

/-! ## Stores -/

/-- Where canvases come from: the text of a room's canvas, if it has one. -/
abbrev Store := String → ExportAction (Option String)

/-- A room's code becomes part of file names, so it holds ASCII letters, digits, minus signs and
underscores only. -/
def isRoomCode (room : String) : Bool :=
  !room.isEmpty && room.toList.all fun c => Text.isAsciiWord c || c == '-'

/-- The file with a room's canvas in a folder. -/
def canvasPath? (folder room : String) : Option String :=
  if isRoomCode room then some (Path.join folder (room ++ ".json")) else none

/-- The store that a folder is. -/
def Store.ofFolder (folder : String) : Store := fun room => do
  match canvasPath? folder room with
  | none => return none
  | some path =>
      match ← FileAction.attempt (FileAction.readText path) with
      | .ok text => return some text
      | .error .notFound => return none
      | .error fault => throw (.file path fault)

/-- The store of canvases that are known by heart. -/
def Store.ofList (canvases : List (String × String)) : Store :=
  fun room => return canvases.lookup room

/-- The pages of a room's canvas. -/
def Store.pages (store : Store) (room : String) : ExportAction (List Page) := do
  match loadPages room (← store room) with
  | .ok pages => return pages
  | .error error => throw error

/-! ## Exporting -/

/-- What an export has made. -/
structure ExportReport where
  room : String
  archive : String
  routes : List Route
  deriving DecidableEq, Repr

/-- The staging folder of a room's export. -/
def Config.stagingFolder (c : Config) (room : String) : String :=
  Path.join c.scratchFolder (c.exportName room)

/-- The archive of a room's export. -/
def Config.archivePath (c : Config) (room : String) : String :=
  Path.join c.scratchFolder (c.exportName room ++ ".zip")

/-- Stages, overlays and archives generated pages. -/
def package (config : Config) (room : String) (pages : List GeneratedPage) :
    ExportAction Unit := do
  let staging := config.stagingFolder room
  stageTemplate config.templateFolder staging
  writePages staging pages
  patchRoutesFile staging (pages.map GeneratedPage.route)
  writeArchive staging (config.archivePath room) (config.exportName room) config.level

/-- Removes a staging folder, if it is there and can be removed. -/
def cleanUp (staging : String) : ExportAction Unit := do
  if ← FileAction.look (·.exists? staging) then
    let _ ← FileAction.attempt (FileAction.removeTree staging)

/-- Exports the canvas of a room as an archive of a project. -/
def exportRoom (config : Config) (store : Store) (room : String) : ExportAction ExportReport := do
  let pages := compilePages (← store.pages room)
  let result ← FileAction.attempt (package config room pages)
  cleanUp (config.stagingFolder room)
  match result with
  | .ok () => return ⟨room, config.archivePath room, pages.map GeneratedPage.route⟩
  | .error error => throw error

end CanvasFlutter
