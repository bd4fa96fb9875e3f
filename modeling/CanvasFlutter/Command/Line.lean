import CanvasFlutter.Command.Run

/-!
# `CanvasFlutter.Command.Line` — the command line

## Contents
- **Requests.** `Request`: a command with its arguments, or a text to show.
- **Reading.** `Grammar` says what a command takes; `Grammar.read?` reads its arguments, and
  `parse` reads a whole command line.
- **Running.** `runRequest` and `runLine`, with the exit code.
-/

namespace CanvasFlutter.CommandLine

/-! ## Requests -/

/-- What a command line asks for. -/
inductive Request where
  | init (name : String)
  | exportRoom (room : String) (config : Option String)
  | compile (file : String) (page : Option String)
  | watch (room : String) (config : Option String)
  | clean (config : Option String)
  | version
  | help
  deriving DecidableEq, Repr

/-! ## Reading -/

/-- What a command takes besides `--help` and `--verbose`. -/
structure Grammar where
  /-- How many arguments without a name it must have. -/
  arity : Nat
  /-- The name of its option, with its dashes. -/
  option : Option String

/-- The arguments of a command as far as they are read. -/
structure Arguments where
  positional : List String := []
  option : Option String := none
  verbose : Bool := false

/-- What reading arguments comes to. -/
inductive Reading where
  | done (arguments : Arguments)
  | help
  | usageError

/-- Whether an argument is a name and not a value. -/
def isFlag (arg : String) : Bool :=
  match arg.toList with
  | '-' :: _ :: _ => true
  | _ => false

/-- The text after the equals sign of an option that is written with its value. -/
def valueOf? (option arg : String) : Option String :=
  (Text.after? (option.toList ++ ['=']) arg.toList).map String.ofList

/-- The letters of an argument such as `-v`. -/
inductive Letters where
  | verbose
  | help
  | version
  | wrong

/-- What the letters of an argument ask for; each of them counts until one decides. -/
def readLetters (withVersion verbose : Bool) : Text → Letters
  | [] => .verbose
  | 'v' :: rest => if verbose then .wrong else readLetters withVersion true rest
  | 'h' :: _ => .help
  | 'V' :: _ => if withVersion then .version else .wrong
  | _ :: _ => .wrong

/-- Adds an argument without a name, if there is room for one. -/
def addPositional (g : Grammar) (a : Arguments) (arg : String) : Option Arguments :=
  if a.positional.length < g.arity then some { a with positional := a.positional ++ [arg] }
  else none

/-- Adds arguments none of which has a name. -/
def addAll (g : Grammar) (a : Arguments) : List String → Option Arguments
  | [] => some a
  | arg :: rest => (addPositional g a arg).bind fun a => addAll g a rest

/-- The arguments of a command, all of which must be there. -/
def finish (g : Grammar) (a : Arguments) : Reading :=
  if a.positional.length = g.arity then .done a else .usageError

/-- Reads the arguments of a command. -/
def Grammar.read (g : Grammar) (a : Arguments) : List String → Reading
  | [] => finish g a
  | arg :: rest =>
      if arg = "--" then
        match addAll g a rest with
        | some a => finish g a
        | none => .usageError
      else if arg = "--help" then .help
      else if arg = "--verbose" then
        if a.verbose then .usageError else Grammar.read g { a with verbose := true } rest
      else if g.option = some arg then
        match rest with
        | value :: rest =>
            if isFlag value || a.option.isSome then .usageError
            else Grammar.read g { a with option := some value } rest
        | [] => .usageError
      else
        match g.option.bind (valueOf? · arg) with
        | some value =>
            if a.option.isSome then .usageError
            else Grammar.read g { a with option := some value } rest
        | none =>
            if "--".toList.isPrefixOf arg.toList then .usageError
            else if isFlag arg then
              match readLetters false a.verbose (arg.toList.drop 1) with
              | .verbose => Grammar.read g { a with verbose := true } rest
              | .help => .help
              | .version => .usageError
              | .wrong => .usageError
            else
              match addPositional g a arg with
              | some a => Grammar.read g a rest
              | none => .usageError

/-- What a command takes. -/
def grammar? (command : String) : Option Grammar :=
  match command with
  | "init" => some ⟨1, none⟩
  | "export" => some ⟨1, some "--config"⟩
  | "compile" => some ⟨1, some "--page"⟩
  | "watch" => some ⟨1, some "--config"⟩
  | "clean" => some ⟨0, some "--config"⟩
  | _ => none

/-- The request of a command with these arguments. -/
def request? (command : String) (a : Arguments) : Option Request :=
  match command, a.positional with
  | "init", [name] => some (.init name)
  | "export", [room] => some (.exportRoom room a.option)
  | "compile", [file] => some (.compile file a.option)
  | "watch", [room] => some (.watch room a.option)
  | "clean", [] => some (.clean a.option)
  | _, _ => none

/-- The request of a command line after a command's name; none for a usage error. -/
def readCommand (command : String) (args : List String) : Option Request :=
  match grammar? command with
  | none =>
      if command = "help" then
        match args with
        | [] => some .help
        | [name] => if (grammar? name).isSome || name = "help" then some .help else none
        | _ => none
      else none
  | some g =>
      match g.read {} args with
      | .done a => request? command a
      | .help => some .help
      | .usageError => none

/-- The request of a command line; none for a usage error. -/
def parseFrom (verbose : Bool) : List String → Option Request
  | [] => none
  | arg :: rest =>
      if arg = "--help" then some .help
      else if arg = "--version" then some .version
      else if arg = "--verbose" then if verbose then none else parseFrom true rest
      else if arg = "--" || "--".toList.isPrefixOf arg.toList then none
      else if isFlag arg then
        match readLetters true verbose (arg.toList.drop 1) with
        | .verbose => parseFrom true rest
        | .help => some .help
        | .version => some .version
        | .wrong => none
      else readCommand arg rest

/-- The request of a command line; none for a usage error. -/
def parse (args : List String) : Option Request := parseFrom false args

/-! ## Running -/

/-- The line that names the program and its version. -/
def versionLine : String := "canvas-export 0.1.0"

/-- How the program is used. -/
def usage : String :=
  "Export drag-and-drop canvases as zipped Flutter projects\n\n"
    ++ "Usage: canvas-export [--verbose] <COMMAND>\n\n"
    ++ "Commands:\n"
    ++ "  init <NAME>\n"
    ++ "  export <ROOM> [--config <CONFIG>]\n"
    ++ "  compile <FILE> [--page <PAGE>]\n"
    ++ "  watch <ROOM> [--config <CONFIG>]\n"
    ++ "  clean [--config <CONFIG>]\n"

/-- Does what a command line asks for. -/
def runRequest : Request → CommandAction Unit
  | .init name => Command.init name
  | .exportRoom room config => Command.exportOnce room config
  | .compile file page => Command.compile file page
  | .watch room config => Command.watch room config
  | .clean config => Command.clean config
  | .version => CommandAction.printLine versionLine
  | .help => CommandAction.print [.text usage]

/-- Runs a command line; gives the exit code, the error if there is one, and the session. -/
def runLine (args : List String) (w : Workspace) : UInt32 × Option CommandError × Session :=
  match parse args with
  | none => (2, none, ⟨w, [.warning usage]⟩)
  | some request =>
      match (runRequest request).runOn w with
      | (.ok (), session) => (0, none, session)
      | (.error error, session) => (1, some error, session)

end CanvasFlutter.CommandLine
