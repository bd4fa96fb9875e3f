import CanvasFlutter.Toml.Read
import CanvasFlutter.Workspace.Files

/-!
# `CanvasFlutter.Export.Config` — the configuration of exports

A configuration says where the template, the canvases and the exports are and how archives are
named. Whatever its file leaves out has a default; a table of settings may also be written as the
array of its values.

## Contents
- **Configuration.** `Config`, its folders and the name of an export.
- **Settings.** `settingOf?`, `Config.ofToml?`.
- **Checks.** `ConfigError`, `checkStem`, `checkLevel`.
- **Files.** `Config.load`, `Config.loadOrDefault`.
-/

namespace CanvasFlutter

/-! ## Configurations -/

/-- Where things are and how archives are named. -/
structure Config where
  template : String := "templates/flutter"
  scratch : String := "tmp-export"
  canvases : String := "canvases"
  /-- What the names of exports begin with. -/
  stem : String := "flutter"
  level : Int := 9
  /-- The folder that the other paths start from. -/
  baseFolder : String := ""
  deriving DecidableEq, Repr

namespace Config

/-- The folder with the template project. -/
def templateFolder (c : Config) : String := Path.join c.baseFolder c.template

/-- The folder that receives exports. -/
def scratchFolder (c : Config) : String := Path.join c.baseFolder c.scratch

/-- The folder with the canvases of rooms. -/
def canvasesFolder (c : Config) : String := Path.join c.baseFolder c.canvases

/-- The name of a room's export. -/
def exportName (c : Config) (room : String) : String := c.stem ++ "-" ++ room

/-! ## Settings -/

/-- A named setting among a table's members, or the one at an index of an array of values; the
fallback if it is left out, and none if it is of another type. -/
def settingOf? {α : Type} (read? : Toml.Value → Option α) (name : String) (index : Nat)
    (fallback : α) : Option Toml.Value → Option α
  | none => some fallback
  | some (.table _ members) =>
      match Toml.lookup? name members with
      | some value => read? value
      | none => some fallback
  | some (.array items) =>
      match items[index]? with
      | some value => read? value
      | none => some fallback
  | some (.tables items) => if index < items.length then none else some fallback
  | some .moment => some fallback
  | some _ => none

/-- A setting that is a text. -/
def text? : Toml.Value → Option String
  | .string s => some s
  | _ => none

/-- A setting that is an integer of 64 bits. -/
def integer? : Toml.Value → Option Int
  | .integer n => if -9223372036854775808 ≤ n ∧ n ≤ 9223372036854775807 then some n else none
  | _ => none

/-- The configuration that a document describes. -/
def ofToml? (document : Toml.Members) : Option Config := do
  let paths := Toml.lookup? "paths" document
  let output := Toml.lookup? "output" document
  let defaults : Config := {}
  let template ← settingOf? text? "template" 0 defaults.template paths
  let scratch ← settingOf? text? "scratch" 1 defaults.scratch paths
  let canvases ← settingOf? text? "canvases" 2 defaults.canvases paths
  let stem ← settingOf? text? "prefix" 0 defaults.stem output
  let level ← settingOf? integer? "compression_level" 1 defaults.level output
  return { template, scratch, canvases, stem, level }

end Config

/-! ## Checks -/

/-- Why a configuration cannot be used. -/
inductive ConfigError where
  | missing (path : String)
  | unreadable (path : String) (fault : FileFault)
  | malformed (path : String)
  | emptyStem
  /-- The stem does not begin with a small letter. -/
  | badStart (stem : String)
  /-- The stem holds a character that has no place in it. -/
  | badCharacter (stem : String) (c : Char)
  | badLevel (level : Int)
  deriving DecidableEq, Repr

/-- The wording of a configuration error. -/
def ConfigError.message : ConfigError → String
  | .missing path => "could not find `" ++ path ++ "` in current directory"
  | .unreadable path fault => "failed to read `" ++ path ++ "`: " ++ fault.message
  | .malformed path => "failed to parse `" ++ path ++ "`"
  | .emptyStem => "Invalid output prefix. Prefix must not be empty"
  | .badStart stem => "Invalid output prefix '" ++ stem ++ "'. Must start with a lowercase letter"
  | .badCharacter stem c =>
      "Invalid output prefix '" ++ stem ++ "'. Contains invalid character '"
        ++ String.ofList [c] ++ "'"
  | .badLevel level =>
      "Invalid compression level " ++ String.ofList (Decimal.writeInt level)
        ++ ". Must be between 0 and 9"

namespace Config

/-- A small ASCII letter. -/
def isSmall (c : Char) : Bool := 'a' ≤ c && c ≤ 'z'

/-- A character that may stand in a stem. -/
def isStemChar (c : Char) : Bool := isSmall c || c.isDigit || c == '_' || c == '-'

/-- What is wrong with a stem, if anything. -/
def stemFault? (stem : String) : Option ConfigError :=
  match stem.toList with
  | [] => some .emptyStem
  | first :: rest =>
      if isSmall first then
        ((first :: rest).find? fun c => !isStemChar c).map (.badCharacter stem)
      else some (.badStart stem)

/-- What is wrong with a level, if anything. -/
def levelFault? (level : Int) : Option ConfigError :=
  if 0 ≤ level ∧ level ≤ 9 then none else some (.badLevel level)

/-- What is wrong with a configuration, the stem before the level. -/
def fault? (c : Config) : Option ConfigError := stemFault? c.stem <|> levelFault? c.level

/-! ## Files -/

/-- The name under which a configuration is looked for. -/
def fileName : String := "canvas-export.toml"

/-- The configuration in a text, read from a path. -/
def parse (path text : String) : Except ConfigError Config :=
  match (Toml.parse? text).bind ofToml? with
  | none => .error (.malformed path)
  | some config =>
      match config.fault? with
      | some error => .error error
      | none => .ok { config with baseFolder := (Path.parent? path).getD "" }

/-- The configuration in the file that a path leads to. -/
def load (path : String) : FileAction ConfigError Config := do
  let fault (f : FileFault) : ConfigError :=
    if f = .notFound then .missing path else .unreadable path f
  let text ← FileAction.mapError fault (FileAction.readText path)
  match parse path text with
  | .ok config => return config
  | .error error => throw error

/-- The configuration at a path, which must be there; without a path, that of the working folder,
or else the default. -/
def loadOrDefault (path : Option String) : FileAction ConfigError Config := do
  match path with
  | some path => load path
  | none => if ← FileAction.look (·.exists? fileName) then load fileName else return {}

end Config

end CanvasFlutter
