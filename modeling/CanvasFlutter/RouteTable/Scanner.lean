import CanvasFlutter.Text

/-!
# `CanvasFlutter.RouteTable.Scanner` — what is code and what is not

A routes file is read without a full grammar. One scanner tells, for each character, whether it
stands in code or inside a string or comment; the search for the table and the search for the
closing brace both go by its marks. The character that opens a string or comment counts as code.

## Contents
- **States.** `State`, `State.next`.
- **Marks.** `mark` pairs every character with whether it is code; it loses none
  (`map_fst_mark`).
- **Braces.** `closingBrace?`.
-/

namespace CanvasFlutter.Scanner

/-! ## States -/

/-- Where a character stands. -/
inductive State where
  | code
  /-- In a string that this quote ends. -/
  | quoted (quote : Char)
  /-- Right after a backslash in a string that this quote ends. -/
  | escaped (quote : Char)
  /-- In a comment that ends with its line. -/
  | lineComment
  /-- On the star that opens a block comment. -/
  | blockOpening
  | blockComment
  /-- On the slash that ends a block comment. -/
  | blockClosing
  deriving DecidableEq, Repr

/-- Where the next character stands, given this character and the one that follows it. -/
def State.next (state : State) (c : Char) (following : Option Char) : State :=
  match state with
  | .code =>
      if c = '\'' ∨ c = '"' then .quoted c
      else if c = '/' ∧ following = some '/' then .lineComment
      else if c = '/' ∧ following = some '*' then .blockOpening
      else .code
  | .quoted quote =>
      if c = quote then .code else if c = '\\' then .escaped quote else .quoted quote
  | .escaped quote => .quoted quote
  | .lineComment => if c = '\n' then .code else .lineComment
  | .blockOpening => .blockComment
  | .blockComment => if c = '*' ∧ following = some '/' then .blockClosing else .blockComment
  | .blockClosing => .code

/-! ## Marks -/

/-- Every character with whether it stands in code. -/
def mark : State → Text → List (Char × Bool)
  | _, [] => []
  | state, c :: rest => (c, state = .code) :: mark (state.next c rest.head?) rest

/-- Marking loses nothing. -/
theorem map_fst_mark (state : State) (t : Text) : (mark state t).map Prod.fst = t := by
  induction t generalizing state with
  | nil => rfl
  | cons c t ih => simp [mark, ih]

/-! ## Braces -/

/-- How many marked characters stand before the brace that closes as many as are open; strings and
comments do not count. -/
def closingFrom? (depth : Nat) : List (Char × Bool) → Option Nat
  | [] => none
  | (c, isCode) :: rest =>
      if isCode && c == '{' then (closingFrom? (depth + 1) rest).map (· + 1)
      else if isCode && c == '}' then
        if depth ≤ 1 then some 0 else (closingFrom? (depth - 1) rest).map (· + 1)
      else (closingFrom? depth rest).map (· + 1)

/-- How many characters stand between an open brace and the brace that closes it, given what
follows the open brace. -/
def closingBrace? (afterOpening : Text) : Option Nat := closingFrom? 1 (mark .code afterOpening)

end CanvasFlutter.Scanner
