import CanvasFlutter.Text

/-!
# `CanvasFlutter.Route.PageName` — names made of page names

## Contents
- **Slugs.** `slug`, for folders, files and route paths.
- **Classes.** `pascalCase`, for widget classes.
-/

namespace CanvasFlutter.PageName

/-! ## Slugs -/

/-- The small form of a character, if it begins with an ASCII character. Beyond ASCII only two
characters have such a form: the Kelvin sign, and the capital i with a dot. -/
def smallAscii (c : Char) : Char :=
  if c.toNat = 0x212A then 'k'
  else if c.toNat = 0x130 then 'i'
  else c.toLower

/-- The page name in small letters, without what has no place in a file name. -/
def slug (name : Text) : Text := (name.map smallAscii).filter Text.isAsciiWord

/-! ## Classes -/

/-- Whether a new word begins after this character. -/
def isWordBreak (c : Char) : Bool := Text.isWhite c || c == '_' || c == '-'

/-- The words of a name, cut at every break. -/
def words (name : Text) : List Text := name.splitOnP isWordBreak

/-- A word's ASCII letters and digits, the first a capital. -/
def capitalized (word : Text) : Text :=
  match word.filter Char.isAlphanum with
  | [] => []
  | first :: rest => first.toUpper :: rest

/-- The words of a name, each with a capital, without anything between. -/
def pascalCase (name : Text) : Text := (words name).flatMap capitalized

end CanvasFlutter.PageName
