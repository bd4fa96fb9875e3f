import CanvasFlutter.Command.Line

/-!
# `CanvasFlutter.Command.Footprint` — what a command looks at

Of a whole disk a command needs a few paths only, and which these are follows from the request
and, for most requests, from the configuration.

## Contents
- **Footprints.** `Footprint`: a path, with or without all below it.
- **Requests.** `Request.settings`, `Request.footprint`.
-/

namespace CanvasFlutter

/-! ## Footprints -/

/-- A path that a command looks at or changes. -/
structure Footprint where
  path : String
  /-- Whether all that is below the path counts too. -/
  whole : Bool
  deriving DecidableEq, Repr

namespace CommandLine.Request

/-! ## Requests -/

/-- The configuration option of a request, if a configuration matters to it. -/
def configOption? : Request → Option (Option String)
  | .exportRoom _ config => some config
  | .watch _ config => some config
  | .clean config => some config
  | _ => none

/-- Where the configuration of a request is looked for. -/
def settings (request : Request) : List Footprint :=
  request.configOption?.toList.map fun option => ⟨option.getD Config.fileName, false⟩

/-- What a new workspace with this name consists of. -/
def starterFiles (name : String) : List String :=
  Starter.templateFiles.map (fun file => Path.join (Path.join name "templates/flutter") file.1)
    ++ ["canvases/demo.json", Config.fileName, ".gitignore"].map (Path.join name)

/-- What the export of a room looks at. -/
def exportFootprint (config : Config) (room : String) : List Footprint :=
  let archive := config.archivePath room
  [⟨config.templateFolder, true⟩, ⟨config.stagingFolder room, true⟩, ⟨archive, false⟩,
    ⟨Package.partialPath archive, false⟩, ⟨config.canvasesFolder, false⟩]
    ++ (canvasPath? config.canvasesFolder room).toList.map fun path => ⟨path, false⟩

/-- What a request looks at besides its configuration, given what that says. -/
def footprint (config : Config) : Request → List Footprint
  | .init name => ⟨name, false⟩ :: (starterFiles name).map fun path => ⟨path, false⟩
  | .exportRoom room _ => exportFootprint config room
  | .compile file _ => [⟨file, false⟩]
  | .watch room _ => exportFootprint config room
  | .clean _ => [⟨config.scratchFolder, false⟩]
  | .version => []
  | .help => []

end CommandLine.Request

end CanvasFlutter
