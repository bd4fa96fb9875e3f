import CanvasFlutter.Export.Room

/-!
# `CanvasFlutter.Command.Session` — what commands work on and why they fail

A command changes a workspace and prints as it goes. What it printed before a failure stays
printed, so the output belongs to the session and not to the result.

## Contents
- **Errors.** `CommandError`; a message names every step that failed, the outermost first.
- **Sessions.** `Output`, `Session`, `CommandAction`, `print`, `onFiles`.
-/

namespace CanvasFlutter

/-! ## Errors -/

/-- Why a command fails. -/
inductive CommandError where
  | config (error : ConfigError)
  | compile (error : CompileError)
  | missingFile (path : String)
  | alreadyThere (name : String)
  | invalidRoom (room : String)
  | exporting (room : String) (error : ExportError)
  | unwatchable (path : String)
  /-- A step of a command that a file operation stopped. -/
  | step (what : String) (fault : FileFault)
  deriving DecidableEq, Repr

/-- The wording of an export error followed by that of its cause, which the error also shows. -/
def ExportError.chain (e : ExportError) : String :=
  match e with
  | .file _ fault => e.message ++ ": " ++ fault.message
  | _ => e.message

/-- The wording of a command error. -/
def CommandError.message : CommandError → String
  | .config error => error.message
  | .compile (.canvas error) => error.chain
  | .compile error => error.message
  | .missingFile path => "File not found: " ++ path
  | .alreadyThere name => "Directory '" ++ name ++ "' already exists"
  | .invalidRoom room => "Invalid room code '" ++ room ++ "'"
  | .exporting room error => "Failed to export room `" ++ room ++ "`: " ++ error.chain
  | .unwatchable path => "Failed to watch " ++ path
  | .step what fault => what ++ ": " ++ fault.message

/-! ## Sessions -/

/-- A piece of what a command prints. -/
inductive Output where
  | text (s : String)
  /-- How long the command has taken. -/
  | elapsed
  /-- The digest of a file. -/
  | digest (hex : String)
  /-- A text for the standard error. -/
  | warning (s : String)
  deriving DecidableEq, Repr

/-- A workspace and what has been printed. -/
structure Session where
  workspace : Workspace
  output : List Output

/-- Something that a command does. -/
abbrev CommandAction (α : Type) := ExceptT CommandError (StateM Session) α

namespace CommandAction

/-- The result of an action and the session after it. -/
def runOn {α : Type} (action : CommandAction α) (w : Workspace) :
    Except CommandError α × Session :=
  action.run.run ⟨w, []⟩

/-- Prints. -/
def print (pieces : List Output) : CommandAction Unit :=
  modify fun s => { s with output := s.output ++ pieces }

/-- Prints a line. -/
def printLine (line : String) : CommandAction Unit := print [.text (line ++ "\n")]

/-- Something done to the workspace, with the cause of its failure. -/
def onFiles {ε α : Type} (cause : ε → CommandError) (action : FileAction ε α) :
    CommandAction α :=
  ExceptT.mk fun s =>
    match action.runOn s.workspace with
    | (.ok a, w) => (.ok a, { s with workspace := w })
    | (.error e, w) => (.error (cause e), { s with workspace := w })

/-- A look at the workspace. -/
def look {α : Type} (f : Workspace → α) : CommandAction α := do return f (← get).workspace

/-- The result of an action, be it a failure. -/
def attempt {α : Type} (action : CommandAction α) : CommandAction (Except CommandError α) :=
  ExceptT.mk do return .ok (← action.run)

end CommandAction

end CanvasFlutter
