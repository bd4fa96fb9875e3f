import CanvasFlutter.Bytes.Sha256
import CanvasFlutter.Command.Session
import CanvasFlutter.Command.Starter

/-!
# `CanvasFlutter.Command.Run` — the commands

## Contents
- **Starting.** `init` makes a workspace with a template project and a first canvas.
- **Compiling.** `compile` prints the sources of a canvas file.
- **Exporting.** `exportOnce`; `watch` up to the point where it waits for changes, and
  `exportAgain` for each of them.
- **Cleaning.** `clean` removes all exports.
-/

namespace CanvasFlutter.Command

open CommandAction

/-! ## Starting -/

/-- Writes a file of a new workspace. -/
def writeNew (shown path text : String) : CommandAction Unit :=
  onFiles (.step ("Failed to write " ++ shown)) (FileAction.writeText path text)

/-- Writes a file of the template project. -/
def writeTemplateFile (folder : String) (file : String × String) : CommandAction Unit := do
  let path := Path.join folder file.1
  match Path.parent? path with
  | some parent =>
      onFiles (.step "Failed to create template directories") (FileAction.makeFolders parent)
  | none => pure ()
  writeNew path path file.2

/-- Makes a new workspace. -/
def init (name : String) : CommandAction Unit := do
  if ← look (·.exists? name) then throw (.alreadyThere name)
  Starter.templateFiles.forM (writeTemplateFile (Path.join name "templates/flutter"))
  onFiles (.step "Failed to create canvases directory")
    (FileAction.makeFolders (Path.join name "canvases"))
  writeNew "canvases/demo.json" (Path.join name "canvases/demo.json") Starter.demoCanvas
  writeNew Config.fileName (Path.join name Config.fileName) Starter.configText
  writeNew ".gitignore" (Path.join name ".gitignore") Starter.ignoreText
  printLine ("     Created export workspace `" ++ name ++ "`")

/-! ## Compiling -/

/-- Prints the sources of the pages in a canvas file, or of those that a word selects. -/
def compile (path : String) (page : Option String) : CommandAction Unit := do
  unless ← look (·.exists? path) do throw (.missingFile path)
  let canvas ← onFiles (.step ("Failed to read " ++ path)) (FileAction.readText path)
  match compileSource canvas page with
  | .ok source => print [.text (String.ofList source)]
  | .error error => throw (.compile error)

/-! ## Exporting -/

/-- The configuration that a command uses. -/
def config (path : Option String) : CommandAction Config :=
  onFiles .config (Config.loadOrDefault path)

/-- The digest of a file in hexadecimal digits. A folder can be opened but not read. -/
def fileDigest (path : String) : CommandAction String := do
  let cause (fault : FileFault) : CommandError :=
    .step ((if fault = .isDirectory then "Failed to read " else "Failed to open ") ++ path) fault
  return Sha256.hexDigest (← onFiles cause (FileAction.readBytes path))

/-- Exports a room and prints a summary. -/
def exportWith (config : Config) (room : String) : CommandAction Unit := do
  let store := Store.ofFolder config.canvasesFolder
  let report ← onFiles (.exporting room) (exportRoom config store room)
  let digest ← fileDigest report.archive
  print [
    .text ("    Packaged `" ++ report.room ++ "` (" ++ toString report.routes.length
      ++ " page(s)) in "),
    .elapsed, .text "\n",
    .text ("     Archive " ++ report.archive ++ "\n"),
    .text "      SHA256 ", .digest digest, .text "\n"]

/-- Exports a room. -/
def exportOnce (room : String) (configPath : Option String) : CommandAction Unit := do
  exportWith (← config configPath) room

/-- Exports a room and gets ready to export it again at every change of its canvas. -/
def watch (room : String) (configPath : Option String) : CommandAction Unit := do
  let config ← config configPath
  let folder := config.canvasesFolder
  if (canvasPath? folder room).isNone then throw (.invalidRoom room)
  match ← attempt (exportWith config room) with
  | .ok () => printLine "   Watching for changes..."
  | .error error =>
      print [
        .warning ("error: initial export failed: " ++ error.message ++ "\n"),
        .warning "Watching anyway (will retry on file changes)...\n"]
  unless ← look (·.exists? folder) do throw (.unwatchable folder)

/-- Exports a room once more because its canvas has changed. -/
def exportAgain (config : Config) (room : String) : CommandAction Unit := do
  let path := (canvasPath? config.canvasesFolder room).getD room
  printLine ("\nChange detected in " ++ path)
  match ← attempt (exportWith config room) with
  | .ok () => printLine "   Finished"
  | .error error => print [.warning ("error: export failed: " ++ error.message ++ "\n")]

/-! ## Cleaning -/

/-- Removes the scratch folder of a configuration. -/
def cleanWith (config : Config) : CommandAction Unit := do
  let scratch := config.scratchFolder
  if ← look (·.exists? scratch) then
    onFiles (.step ("Failed to remove " ++ scratch)) (FileAction.removeTree scratch)
    printLine ("  Removed " ++ scratch)
    printLine "   Cleaned export artifacts"
  else printLine "info: No export artifacts to clean"

/-- Removes the folder with all exports. -/
def clean (configPath : Option String) : CommandAction Unit := do
  cleanWith (← config configPath)

end CanvasFlutter.Command
