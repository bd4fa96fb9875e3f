/-!
# `CanvasFlutter.Text` — characters, trimming and lines

Everything this library scans or writes is a `Text`, a list of characters, so that scanners recurse
on their input and printers are lists put one after the other.

## Contents
- **White space.** `isWhite` is the Unicode property White_Space; `trim`, `isBlank` build on it.
- **Lines.** `pieces` cuts after every line feed and loses nothing (`flatten_pieces`); `lines` also
  drops the line ends.
- **Comparison.** `lower`, `equalsIgnoringCase` (ASCII letters only), `contains`.
-/

namespace CanvasFlutter

/-- Text that is read or written character by character. -/
abbrev Text := List Char

namespace Text

/-! ## White space -/

/-- The Unicode property White_Space. -/
def isWhite (c : Char) : Bool :=
  let n := c.toNat
  (9 ≤ n && n ≤ 13) || n == 0x20 || n == 0x85 || n == 0xA0 || n == 0x1680
    || (0x2000 ≤ n && n ≤ 0x200A) || n == 0x2028 || n == 0x2029 || n == 0x202F || n == 0x205F
    || n == 0x3000

/-- Without the white space in front. -/
def trimStart (t : Text) : Text := t.dropWhile isWhite

/-- Without the white space at the end. -/
def trimEnd (t : Text) : Text := (t.reverse.dropWhile isWhite).reverse

/-- Without the white space at either end. -/
def trim (t : Text) : Text := trimEnd (trimStart t)

/-- Nothing but white space. -/
def isBlank (t : Text) : Bool := t.all isWhite

theorem trimStart_eq_nil_iff (t : Text) : trimStart t = [] ↔ isBlank t = true := by
  induction t with
  | nil => simp [trimStart, isBlank]
  | cons c t ih =>
      simp only [trimStart, isBlank] at ih ⊢
      by_cases h : isWhite c = true <;> simp [h, ih]

/-! ## Lines -/

/-- The text cut after every line feed; each piece keeps its line feed. -/
def pieces : Text → List Text
  | [] => []
  | c :: rest =>
      if c = '\n' then [c] :: pieces rest
      else
        match pieces rest with
        | [] => [[c]]
        | piece :: more => (c :: piece) :: more

theorem pieces_ne_nil {c : Char} {t : Text} : pieces (c :: t) ≠ [] := by
  unfold pieces
  split
  · simp
  · split <;> simp

/-- Cutting into pieces loses nothing. -/
theorem flatten_pieces (t : Text) : (pieces t).flatten = t := by
  induction t with
  | nil => rfl
  | cons c t ih =>
      unfold pieces
      split
      · simp [ih]
      · split
        · next h => rw [h] at ih; simp_all
        · next h => rw [h] at ih; simp_all

/-- A piece without its line feed and without one carriage return before that. -/
def dropLineEnd (piece : Text) : Text :=
  match piece.reverse with
  | '\n' :: '\r' :: rest => rest.reverse
  | '\n' :: rest => rest.reverse
  | _ => piece

/-- The lines of a text, without their line ends. -/
def lines (t : Text) : List Text := (pieces t).map dropLineEnd

/-- Texts with a separator between each two. -/
def joinWith (separator : Text) : List Text → Text
  | [] => []
  | [t] => t
  | t :: more => t ++ separator ++ joinWith separator more

/-! ## Comparison -/

/-- The text with its ASCII capitals made small. -/
def lower (t : Text) : Text := t.map Char.toLower

/-- Equal but for the case of ASCII letters. -/
def equalsIgnoringCase (s t : Text) : Bool := lower s == lower t

/-- Whether `needle` occurs somewhere in the text. -/
def contains (needle : Text) : Text → Bool
  | [] => needle.isEmpty
  | c :: rest => needle.isPrefixOf (c :: rest) || contains needle rest

/-- What follows `start` in a text that begins with it. -/
def after? (start t : Text) : Option Text :=
  if start.isPrefixOf t then some (t.drop start.length) else none

/-- Whether the text ends in this character. -/
def endsWith (c : Char) (t : Text) : Bool := t.getLast? == some c

/-- An ASCII letter or digit, or an underscore. -/
def isAsciiWord (c : Char) : Bool := c.isAlphanum || c == '_'

end Text

/-- Whether a string holds nothing but white space. -/
def blankString (s : String) : Bool := Text.isBlank s.toList

end CanvasFlutter
