import CanvasFlutter.Proofs.Dart.Leaf
import CanvasFlutter.Proofs.Dart.Spelling

namespace CanvasFlutter.Dart.Literal

/-!
# `CanvasFlutter.Proofs.Dart.Quoted` — a string literal stands for its text

The reader of tokens passes over escapes and does not ask what they stand for. The reader here does,
by the rules of the language, hexadecimal escapes included, and it gives back the text that a literal
was written for.

## Contents
- **Reading.** `Place` says how far a literal has been read; `contents?` reads up to the closing
  quote, `readString?` a whole literal.
- **Round trip.** `contents?_escape`, `contents?_string`; two literals that stand in front of other
  text are told apart (`string_append_inj`).
- **Backslashes.** `backslashes` counts those right before a place; `odd_backslashes_iff`.
- **Literals.** `IsLiteralOf`; `isLiteralOf_string`.
-/

/-! ## Reading -/

/-- The value of a hexadecimal digit. -/
def hexValue? (c : Char) : Option Nat :=
  if c.isDigit then some (c.toNat - '0'.toNat)
  else if 'a' ≤ c ∧ c ≤ 'f' then some (c.toNat - 'a'.toNat + 10)
  else if 'A' ≤ c ∧ c ≤ 'F' then some (c.toNat - 'A'.toNat + 10)
  else none

/-- The character of a number. Half of a surrogate pair is no character by itself. -/
def character? (n : Nat) : Option Char := if n.isValidChar then some (Char.ofNat n) else none

/-- How far a literal has been read. -/
inductive Place where
  /-- Between two characters of the text. -/
  | plain
  /-- Right after a backslash. -/
  | escape
  /-- Right after the letter that begins the number of a character. -/
  | unicode
  /-- Within such a number, of which some digits are still to come. -/
  | digits (left value : Nat)
  /-- Within such a number in braces, after some of its digits. -/
  | braced (count value : Nat)
  deriving DecidableEq

/-- A digit of a number of which `left` digits are still to come. -/
def digit? (left value : Nat) (c : Char) : Option (Text × Place) := do
  let digit ← hexValue? c
  let value := 16 * value + digit
  if left = 1 then
    let read ← character? value
    return ([read], .plain)
  else return ([], .digits (left - 1) value)

/-- The characters of the text that a character completes, and how far the literal has then been
read. A dollar sign would begin an interpolation, and no literal goes on beyond its line. -/
def Place.step? : Place → Char → Option (Text × Place)
  | .plain, '\\' => some ([], .escape)
  | .plain, c => if c = '$' ∨ c = '\n' ∨ c = '\r' then none else some ([c], .plain)
  | .escape, 'n' => some (['\n'], .plain)
  | .escape, 'r' => some (['\r'], .plain)
  | .escape, 't' => some (['\t'], .plain)
  | .escape, 'b' => some (['\x08'], .plain)
  | .escape, 'v' => some (['\x0b'], .plain)
  | .escape, 'f' => some (['\x0c'], .plain)
  | .escape, 'x' => some ([], .digits 2 0)
  | .escape, 'u' => some ([], .unicode)
  | .escape, c => if c = '\n' ∨ c = '\r' then none else some ([c], .plain)
  | .unicode, '{' => some ([], .braced 0 0)
  | .unicode, c => digit? 4 0 c
  | .digits left value, c => digit? left value c
  | .braced count value, '}' =>
      if count = 0 then none else (character? value).map fun read => ([read], .plain)
  | .braced count value, c =>
      if count < 6 then (hexValue? c).map fun digit => ([], .braced (count + 1) (16 * value + digit))
      else none

/-- The text up to the quote that closes the literal, and what follows the quote. -/
def contents? : Place → Text → Option (Text × Text)
  | _, [] => none
  | place, c :: rest =>
      if place = .plain ∧ c = '\'' then some ([], rest)
      else do
        let (read, next) ← place.step? c
        let (text, after) ← contents? next rest
        return (read ++ text, after)

/-- The text of the single-quoted literal at the front, and what follows the literal. Three quotes
begin a literal of several lines. -/
def readString? : Text → Option (Text × Text)
  | '\'' :: '\'' :: '\'' :: _ => none
  | '\'' :: rest => contents? .plain rest
  | _ => none

/-! ## Round trip -/

theorem contents?_quote (rest : Text) : contents? .plain ('\'' :: rest) = some ([], rest) := by
  rw [contents?, if_pos ⟨rfl, rfl⟩]

theorem contents?_of_step? {place next : Place} {c : Char} {read : Text}
    (h : place.step? c = some (read, next)) (hquote : ¬ (place = .plain ∧ c = '\'')) (rest : Text) :
    contents? place (c :: rest)
      = (contents? next rest).map fun result => (read ++ result.1, result.2) := by
  rw [contents?, if_neg hquote, h]
  show ((contents? next rest).bind fun result => some (read ++ result.1, result.2)) = _
  cases contents? next rest with
  | none => rfl
  | some result => rfl

/-- What stands for a character in a literal: the character, or a backslash and another one. -/
theorem escape_cases (c : Char) :
    (escape c = [c] ∧ c ≠ '\\' ∧ c ≠ '\'' ∧ c ≠ '$' ∧ c ≠ '\n' ∧ c ≠ '\r')
      ∨ ∃ d, escape c = ['\\', d] ∧ Place.escape.step? d = some ([c], .plain) := by
  rw [escape.eq_def]
  split
  case h_7 hbackslash hquote hdollar hn hr _ =>
    exact .inl ⟨rfl, hbackslash, hquote, hdollar, hn, hr⟩
  all_goals exact .inr ⟨_, rfl, rfl⟩

/-- **What is written for a character is read as that character.** -/
theorem contents?_escape (c : Char) (rest : Text) :
    contents? .plain (escape c ++ rest)
      = (contents? .plain rest).map fun result => (c :: result.1, result.2) := by
  rcases escape_cases c with ⟨heq, hbackslash, hquote, hdollar, hn, hr⟩ | ⟨d, heq, hstep⟩
  · have hplain : Place.plain.step? c = some ([c], .plain) := by
      rw [Place.step?]
      · simp [hdollar, hn, hr]
      · exact hbackslash
    rw [heq, List.singleton_append, contents?_of_step? hplain fun h => hquote h.2]
    rfl
  · have hbackslash : Place.plain.step? '\\' = some ([], .escape) := rfl
    rw [heq, List.cons_append, contents?_of_step? hbackslash (by decide), List.singleton_append,
      contents?_of_step? hstep (by simp), Option.map_map]
    rfl

theorem contents?_string (t rest : Text) :
    contents? .plain (t.flatMap escape ++ '\'' :: rest) = some (t, rest) := by
  induction t with
  | nil => exact contents?_quote rest
  | cons c t ih =>
      rw [List.flatMap_cons, List.append_assoc, contents?_escape, ih]
      rfl

theorem string_append (t rest : Text) :
    string t ++ rest = '\'' :: (t.flatMap escape ++ '\'' :: rest) := by
  rw [string, List.cons_append, List.append_assoc, List.singleton_append]

/-- **Different texts have different literals**, also where other text follows these. -/
theorem string_append_inj {s t rest more : Text} (h : string s ++ rest = string t ++ more) :
    s = t ∧ rest = more := by
  rw [string_append, string_append] at h
  have hread := congrArg (contents? .plain) (List.cons.inj h).2
  rw [contents?_string, contents?_string] at hread
  exact Prod.mk.inj (Option.some.inj hread)

theorem head?_flatMap_escape {t : Text} (h : t ≠ []) (rest : Text) :
    (t.flatMap escape ++ rest).head? ≠ some '\'' := by
  obtain ⟨c, t, rfl⟩ := List.exists_cons_of_ne_nil h
  rcases escape_cases c with ⟨heq, -, hquote, -⟩ | ⟨d, heq, -⟩
  · simpa [heq] using hquote
  · simp [heq]

/-- A literal is read wherever what follows the empty one makes no three quotes of it. -/
theorem readString?_string {t rest : Text} (h : t ≠ [] ∨ rest.head? ≠ some '\'') :
    readString? (string t ++ rest) = some (t, rest) := by
  have hstart : ∀ more, t.flatMap escape ++ '\'' :: rest ≠ '\'' :: '\'' :: more := by
    intro more heq
    rcases t with _ | ⟨c, t⟩
    · have hrest : rest = '\'' :: more := (List.cons.inj heq).2
      rw [hrest] at h
      simp at h
    · apply head?_flatMap_escape (List.cons_ne_nil c t)
      rw [heq]
      rfl
  rw [string_append, readString?]
  · exact contents?_string t rest
  · exact hstart

/-! ## Backslashes -/

/-- How many backslashes a text ends in. -/
def backslashes (t : Text) : Nat := (t.reverse.takeWhile (· == '\\')).length

theorem backslashes_append_backslash (t : Text) :
    backslashes (t ++ ['\\']) = backslashes t + 1 := by
  simp [backslashes]

theorem backslashes_append_of_ne (t : Text) {c : Char} (h : c ≠ '\\') :
    backslashes (t ++ [c]) = 0 := by
  simp [backslashes, h]

/-- In front of what is written for a character stands an even number of backslashes, so that it is
not escaped itself, and so it does behind. -/
theorem even_backslashes_escape {front : Text} (h : backslashes front % 2 = 0) (c : Char) :
    backslashes (front ++ escape c) % 2 = 0 := by
  rcases escape_cases c with ⟨heq, hbackslash, -⟩ | ⟨d, heq, -⟩
  · rw [heq, backslashes_append_of_ne front hbackslash]
  · have hfront : front ++ ['\\', d] = front ++ ['\\'] ++ [d] := by simp
    rw [heq, hfront]
    by_cases hd : d = '\\'
    · rw [hd, backslashes_append_backslash, backslashes_append_backslash]
      omega
    · rw [backslashes_append_of_ne _ hd]

/-- The induction is on the text that is still to be written; `front` is what stands before it. -/
theorem odd_backslashes_iff (t : Text) {front before after : Text} {c : Char}
    (hfront : backslashes front % 2 = 0) (heq : t.flatMap escape ++ ['\''] = before ++ c :: after)
    (hc : c = '$' ∨ c = '\'') : backslashes (front ++ before) % 2 = 1 ↔ after ≠ [] := by
  induction t generalizing front before with
  | nil =>
      -- the closing quote
      obtain ⟨rfl, hlast⟩ : before = [] ∧ ['\''] = c :: after := by
        cases before with
        | nil => exact ⟨rfl, heq⟩
        | cons d before => simp at heq
      obtain rfl : after = [] := (List.cons.inj hlast).2.symm
      rw [List.append_nil, hfront]
      decide
  | cons d t ih =>
      rw [List.flatMap_cons, List.append_assoc] at heq
      have heven := even_backslashes_escape hfront d
      rcases escape_cases d with ⟨hd, -, hquote, hdollar, -⟩ | ⟨e, hd, -⟩
      · rw [hd] at heq heven
        cases before with
        | nil =>
            obtain rfl : d = c := (List.cons.inj heq).1
            exact absurd hc (by simp [hquote, hdollar])
        | cons first before =>
            obtain ⟨rfl, hrest⟩ := List.cons.inj heq
            simpa using ih heven hrest
      · rw [hd] at heq heven
        match before with
        | [] =>
            obtain rfl : '\\' = c := (List.cons.inj heq).1
            exact absurd hc (by decide)
        | [first] =>
            -- right behind the backslash
            obtain ⟨rfl, hrest⟩ := List.cons.inj heq
            have hafter : t.flatMap escape ++ ['\''] = after := (List.cons.inj hrest).2
            rw [backslashes_append_backslash, ← hafter]
            simp only [ne_eq, List.append_eq_nil_iff, List.cons_ne_nil, and_false, not_false_eq_true,
              iff_true]
            omega
        | first :: second :: before =>
            obtain ⟨rfl, hrest⟩ := List.cons.inj heq
            have htail : t.flatMap escape ++ ['\''] = before ++ c :: after := (List.cons.inj hrest).2
            obtain rfl : e = second := (List.cons.inj hrest).1
            simpa using ih heven htail

/-! ## Literals -/

/-- A text written as a literal on one line. -/
structure IsLiteralOf (text literal : Text) : Prop where
  /-- It is one string in single quotes. -/
  token : tokens? literal = some [.string literal]
  noBreak : Lexer.NoBreak literal
  /-- An odd number of backslashes stands before each dollar sign and each quote within, and an even
  one before the last quote. -/
  escaped : ∀ before c after, literal = before ++ c :: after → before ≠ [] → c = '$' ∨ c = '\'' →
    (backslashes before % 2 = 1 ↔ after ≠ [])
  /-- It stands for the text. -/
  read : ∀ rest, text ≠ [] ∨ rest.head? ≠ some '\'' → readString? (literal ++ rest) = some (text, rest)

theorem noBreak_string (t : Text) : Lexer.NoBreak (string t) :=
  Lexer.noBreak_of_tokens? (Lexer.phrase_string t).tokens? _ (List.mem_singleton_self _)

/-- **The literal of a text stands for that text**, and no other literal begins as it does, whatever
follows the two. -/
theorem isLiteralOf_string (t : Text) :
    IsLiteralOf t (string t)
      ∧ ∀ s rest more, string s ++ rest = string t ++ more → s = t ∧ rest = more := by
  refine ⟨⟨(Lexer.phrase_string t).tokens?, noBreak_string t, ?_, fun _ => readString?_string⟩,
    fun _ _ _ => string_append_inj⟩
  intro before c after heq hbefore hc
  obtain ⟨first, before, rfl⟩ := List.exists_cons_of_ne_nil hbefore
  obtain ⟨rfl, hrest⟩ := List.cons.inj heq
  have hopen : backslashes ['\''] % 2 = 0 := by decide
  exact odd_backslashes_iff t hopen hrest hc

theorem isLiteralOf_string_price :
    IsLiteralOf "it's $5\\".toList "'it\\'s \\$5\\\\'".toList
      ∧ ∀ s rest more, string s ++ rest = "'it\\'s \\$5\\\\'".toList ++ more →
        s = "it's $5\\".toList ∧ rest = more :=
  isLiteralOf_string "it's $5\\".toList

-- Hexadecimal escapes are read though none is written.
example : readString? "'\\x41\\u00e9\\u\x7b1F600\x7d\\q' + b".toList
    = some ("Aé😀q".toList, " + b".toList) := by decide

end CanvasFlutter.Dart.Literal
