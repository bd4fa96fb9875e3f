/-!
# `CanvasFlutter.Error` — why an export fails

## Contents
- **Causes.** `CanvasFault`, `FileFault`, `ExportError`.
- **Wording.** `message` for each.
-/

namespace CanvasFlutter

/-! ## Causes -/

/-- Why a text is no canvas. -/
inductive CanvasFault where
  | invalidJson
  | missingPages
  | notPages
  /-- The page with this number, counted from one, is no object. -/
  | pageNotObject (number : Nat)
  deriving DecidableEq, Repr

/-- Why a file operation fails. -/
inductive FileFault where
  | notFound
  | exists
  | notDirectory
  | isDirectory
  | notEmpty
  | nameTooLong
  | tooManyLinks
  | invalidArgument
  | busy
  | nulInName
  | invalidText
  | templateMissing
  deriving DecidableEq, Repr

/-- Why an export fails. -/
inductive ExportError where
  | noCanvas (room : String)
  | malformedCanvas (fault : CanvasFault)
  | routeTableNotFound
  | file (path : String) (fault : FileFault)
  | archive (path : String)
  deriving DecidableEq, Repr

/-! ## Wording -/

/-- The wording of a fault in a canvas. -/
def CanvasFault.message : CanvasFault → String
  | .invalidJson => "invalid JSON"
  | .missingPages => "missing `pages` array"
  | .notPages => "expected an object with `pages` or an array of pages"
  | .pageNotObject number => "page " ++ toString number ++ " is not an object"

/-- The wording of a file fault; those of the system end in its number. -/
def FileFault.message : FileFault → String
  | .notFound => "No such file or directory (os error 2)"
  | .exists => "File exists (os error 17)"
  | .notDirectory => "Not a directory (os error 20)"
  | .isDirectory => "Is a directory (os error 21)"
  | .notEmpty => "Directory not empty (os error 39)"
  | .nameTooLong => "File name too long (os error 36)"
  | .tooManyLinks => "Too many levels of symbolic links (os error 40)"
  | .invalidArgument => "Invalid argument (os error 22)"
  | .busy => "Device or resource busy (os error 16)"
  | .nulInName => "file name contained an unexpected NUL byte"
  | .invalidText => "stream did not contain valid UTF-8"
  | .templateMissing => "template directory not found"

/-- The wording of an export error, which ends in the wording of its cause. -/
def ExportError.message : ExportError → String
  | .noCanvas room => "no canvas for room `" ++ room ++ "`"
  | .malformedCanvas fault => "malformed canvas format: " ++ fault.message
  | .routeTableNotFound => "route table not found in template routes file"
  | .file path fault => "failed to access `" ++ path ++ "`: " ++ fault.message
  | .archive path => "failed to write archive `" ++ path ++ "`"

end CanvasFlutter
