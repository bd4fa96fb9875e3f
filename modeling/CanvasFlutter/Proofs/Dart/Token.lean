import CanvasFlutter.Dart.Paint
import CanvasFlutter.Proofs.Text.Lines

namespace CanvasFlutter.Dart

/-!
# `CanvasFlutter.Proofs.Dart.Token` — source text as tokens

A reader for the part of Dart's lexical grammar that generated source uses: words, numbers,
single-quoted strings on one line, operators and brackets, with white space between. Comments,
double quotes, interpolation, raw strings and strings of several lines are refused, so whatever is
read here is read as Dart reads it.

## Contents
- **Tokens.** `Token`.
- **Numbers.** `Stage` says how far a number has been read.
- **Reader.** `Mode` says what the reader is in the middle of; `read` takes the longest token at
  every place; `tokens?` reads a whole text.
- **Running.** `run` reads a text that may go on; `read_append`.
- **Whole texts.** `Closed` texts are read alike whatever follows, `Phrase`s if a delimiter follows.
-/

/-! ## Tokens -/

/-- A token, with its source. -/
inductive Token where
  /-- An identifier or a keyword. -/
  | word (source : Text)
  | number (source : Text)
  /-- A string literal with its quotes. -/
  | string (source : Text)
  /-- An operator, a bracket or another sign. -/
  | mark (source : Text)
  deriving DecidableEq, Repr

namespace Lexer

/-! ## Numbers -/

/-- How far a number has been read. -/
inductive Stage where
  /-- A lone zero. -/
  | zero
  | whole
  /-- On the point after the whole part. -/
  | point
  | fraction
  /-- On the letter that begins an exponent. -/
  | exponentLetter
  | exponentSign
  | exponent
  /-- On the letter that begins hexadecimal digits. -/
  | hexLetter
  | hex
  deriving DecidableEq, Repr

/-- How far the number has been read after a character that goes on with it. -/
def Stage.next? (stage : Stage) (c : Char) : Option Stage :=
  let orExponent (digits : Stage) : Option Stage :=
    if c.isDigit then some digits
    else if c = 'e' ∨ c = 'E' then some .exponentLetter
    else none
  match stage with
  | .zero =>
      if c = 'x' ∨ c = 'X' then some .hexLetter
      else if c = '.' then some .point
      else orExponent .whole
  | .whole => if c = '.' then some .point else orExponent .whole
  | .point => if c.isDigit then some .fraction else none
  | .fraction => orExponent .fraction
  | .exponentLetter =>
      if c = '+' ∨ c = '-' then some .exponentSign
      else if c.isDigit then some .exponent
      else none
  | .exponentSign => if c.isDigit then some .exponent else none
  | .exponent => if c.isDigit then some .exponent else none
  | .hexLetter => if isHexDigit c then some .hex else none
  | .hex => if isHexDigit c then some .hex else none

/-- Whether a number may end here. -/
def Stage.isComplete : Stage → Bool
  | .zero => true
  | .whole => true
  | .fraction => true
  | .exponent => true
  | .hex => true
  | _ => false

/-! ## The reader -/

/-- What the reader is in the middle of, with what it has read of that. -/
inductive Mode where
  | between
  | word (source : Text)
  | number (stage : Stage) (source : Text)
  | quoted (source : Text)
  /-- Right after a backslash in a string. -/
  | escaped (source : Text)
  /-- Right after the quote that ends a string. -/
  | closed (source : Text)
  | mark (source : Text)
  deriving DecidableEq, Repr

/-- White space between tokens. -/
def isSpace (c : Char) : Bool := c == ' ' || c == '\n' || c == '\t' || c == '\r'

/-- A character of a word. -/
def isWordChar (c : Char) : Bool := Text.isAsciiWord c || c == '$'

/-- The characters that signs begin with. A slash is not among them, for it may begin a comment. -/
def signs : Text := "()[]{},;:.<>=!?+-*%&|^~@".toList

/-- The signs of more than one character. No sign begins with a closing angle bracket, which also
ends the arguments of a type. -/
def operators : List Text :=
  ["=>", "==", "!=", "<=", "??", "??=", "?.", "?..", "..", "...", "...?", "&&", "||", "++", "--",
    "+=", "-=", "*=", "%=", "~/", "~/=", "<<", "<<=", "&=", "|=", "^="].map String.toList

/-- What the reader is in the middle of after a character that goes on with it. -/
def Mode.goOn? : Mode → Char → Option Mode
  | .between, _ => none
  | .word source, c => if isWordChar c then some (.word (source ++ [c])) else none
  | .number stage source, c => (stage.next? c).map fun next => .number next (source ++ [c])
  | .quoted source, c =>
      if c = '\'' then some (.closed (source ++ [c]))
      else if c = '\\' then some (.escaped (source ++ [c]))
      else if c = '$' ∨ c = '\n' ∨ c = '\r' then none
      else some (.quoted (source ++ [c]))
  | .escaped source, c =>
      if c = 'u' ∨ c = 'x' ∨ c = '\n' ∨ c = '\r' then none else some (.quoted (source ++ [c]))
  | .closed _, _ => none
  | .mark source, c =>
      if source = ['.'] ∧ c.isDigit then some (.number .fraction (source ++ [c]))
      else if (source ++ [c]) ∈ operators then some (.mark (source ++ [c]))
      else none

/-- The token that ends here, or none between tokens; no text ends within a string. -/
def Mode.tokens? : Mode → Option (List Token)
  | .between => some []
  | .word source => some [.word source]
  | .number stage source => if stage.isComplete then some [.number source] else none
  | .quoted _ => none
  | .escaped _ => none
  | .closed source => some [.string source]
  | .mark source => some [.mark source]

/-- Whether a character would make another kind of string of what was read: three quotes begin a
string of several lines, and an `r` before a quote a raw one. -/
def Mode.clashes (mode : Mode) (c : Char) : Bool :=
  match mode with
  | .closed _ => c == '\''
  | .word source => source == ['r'] && c == '\''
  | _ => false

/-- What a character begins. -/
def begin? (c : Char) : Option Mode :=
  if isSpace c then some .between
  else if c = '\'' then some (.quoted [c])
  else if c = '0' then some (.number .zero [c])
  else if c.isDigit then some (.number .whole [c])
  else if isWordChar c then some (.word [c])
  else if c ∈ signs then some (.mark [c])
  else none

/-- The tokens up to a character and what the reader is in the middle of after it. -/
def Mode.step? (mode : Mode) (c : Char) : Option (List Token × Mode) :=
  match mode.goOn? c with
  | some next => some ([], next)
  | none =>
      if mode.clashes c then none
      else do
        let tokens ← mode.tokens?
        let next ← begin? c
        return (tokens, next)

/-- The tokens that end in a text, given what the reader is in the middle of, and what it is in the
middle of after the text. -/
def run : Mode → Text → Option (List Token × Mode)
  | mode, [] => some ([], mode)
  | mode, c :: rest => do
      let (tokens, next) ← mode.step? c
      let (more, last) ← run next rest
      return (tokens ++ more, last)

/-- The tokens of a text, given what the reader is in the middle of. -/
def read (mode : Mode) (t : Text) : Option (List Token) := do
  let (tokens, last) ← run mode t
  let more ← last.tokens?
  return tokens ++ more

end Lexer

/-- The tokens of a text. -/
def tokens? (t : Text) : Option (List Token) := Lexer.read .between t

namespace Lexer

/-! ## Running -/

theorem run_append (mode : Mode) (s t : Text) :
    run mode (s ++ t) = (run mode s).bind fun before =>
      (run before.2 t).map fun after => (before.1 ++ after.1, after.2) := by
  induction s generalizing mode with
  | nil =>
      rw [List.nil_append, run, Option.bind_some]
      cases run mode t <;> rfl
  | cons c s ih =>
      rw [List.cons_append, run, run]
      cases hstep : mode.step? c with
      | none => rfl
      | some taken =>
          simp only [Option.bind_eq_bind, Option.bind_some, ih]
          cases hs : run taken.2 s with
          | none => rfl
          | some before => cases ht : run before.2 t <;> simp [ht]

theorem read_append (mode : Mode) (s t : Text) :
    read mode (s ++ t) = (run mode s).bind fun before =>
      (read before.2 t).map (before.1 ++ ·) := by
  rw [read, run_append]
  cases run mode s with
  | none => rfl
  | some before =>
      simp only [Option.bind_eq_bind, Option.bind_some, read]
      cases run before.2 t with
      | none => rfl
      | some after => cases hlast : after.2.tokens? <;> simp [hlast]

theorem read_nil (mode : Mode) : read mode [] = mode.tokens? := by
  simp only [read, run, Option.bind_eq_bind, Option.bind_some]
  cases mode.tokens? <;> rfl

theorem read_cons (mode : Mode) (c : Char) (t : Text) :
    read mode (c :: t) = (mode.step? c).bind fun taken => (read taken.2 t).map (taken.1 ++ ·) := by
  have hrun : run mode [c] = mode.step? c := by
    rw [run]
    cases mode.step? c <;> simp [run]
  rw [← List.singleton_append, read_append, hrun]

/-- Where a character neither goes on with a token nor makes another kind of string of it, the token
ends. -/
theorem read_of_stops {mode : Mode} {tokens : List Token} (hmode : mode.tokens? = some tokens)
    {t : Text} (h : ∀ c ∈ t.head?, mode.goOn? c = none ∧ mode.clashes c = false) :
    read mode t = (read .between t).map (tokens ++ ·) := by
  cases t with
  | nil =>
      rw [read_nil, read_nil, hmode, show Mode.between.tokens? = some [] from rfl, Option.map_some,
        List.append_nil]
  | cons c t =>
      obtain ⟨hgo, hclash⟩ := h c rfl
      have hstep : mode.step? c = (begin? c).map fun next => (tokens, next) := by
        rw [Mode.step?, hgo, hmode, hclash]
        cases begin? c <;> rfl
      have hbetween : Mode.between.step? c = (begin? c).map fun next => ([], next) := by
        cases hc : begin? c <;> simp [Mode.step?, Mode.goOn?, Mode.clashes, Mode.tokens?, hc]
      rw [read_cons, read_cons, hstep, hbetween]
      cases begin? c with
      | none => rfl
      | some next => cases hnext : read next t <;> simp [hnext]

/-! ## Whole texts -/

/-- A text that is these tokens, whatever follows it. -/
def Closed (s : Text) (tokens : List Token) : Prop :=
  ∀ t, read .between (s ++ t) = (read .between t).map (tokens ++ ·)

/-- The characters that go on with no token but a sign. -/
def delimiters : Text := " \n,;:()[]{}>".toList

/-- Whether a text is empty or begins with a delimiter. -/
def Delimited (t : Text) : Prop := ∀ c ∈ t.head?, c ∈ delimiters

/-- A text that is these tokens if a delimiter follows it. -/
def Phrase (s : Text) (tokens : List Token) : Prop :=
  ∀ t, Delimited t → read .between (s ++ t) = (read .between t).map (tokens ++ ·)

theorem map_append_append (ts us : List Token) (more : Option (List Token)) :
    (more.map (us ++ ·)).map (ts ++ ·) = more.map (ts ++ us ++ ·) := by
  cases more <;> simp

theorem Closed.phrase {s : Text} {ts : List Token} (h : Closed s ts) : Phrase s ts :=
  fun t _ => h t

theorem closed_nil : Closed [] [] := fun t => by
  cases h : read .between t <;> simp [h]

theorem Closed.append {s t : Text} {ts us : List Token} (hs : Closed s ts) (ht : Closed t us) :
    Closed (s ++ t) (ts ++ us) := fun u => by
  rw [List.append_assoc, hs, ht, map_append_append]

theorem Closed.append_phrase {s t : Text} {ts us : List Token} (hs : Closed s ts)
    (ht : Phrase t us) : Phrase (s ++ t) (ts ++ us) := fun u hu => by
  rw [List.append_assoc, hs, ht u hu, map_append_append]

theorem delimited_nil : Delimited [] := fun _ h => by simp at h

theorem delimited_cons {c : Char} (h : c ∈ delimiters) (t u : Text) :
    Delimited (c :: t ++ u) := by
  rintro d ⟨⟩
  exact h

/-- A phrase and a delimiter with what follows that. -/
theorem Phrase.append {s t : Text} {ts us : List Token} {c : Char} (hs : Phrase s ts)
    (hc : c ∈ delimiters) (ht : Phrase (c :: t) us) : Phrase (s ++ c :: t) (ts ++ us) :=
  fun u hu => by
  rw [List.append_assoc, hs _ (delimited_cons hc t u), ht u hu, map_append_append]

theorem Phrase.append_closed {s t : Text} {ts us : List Token} {c : Char} (hs : Phrase s ts)
    (hc : c ∈ delimiters) (ht : Closed (c :: t) us) : Closed (s ++ c :: t) (ts ++ us) := fun u => by
  rw [List.append_assoc, hs _ (delimited_cons hc t u), ht u, map_append_append]

/-- A phrase and what begins with a delimiter. -/
theorem Phrase.then_phrase {s t : Text} {ts us : List Token} (hs : Phrase s ts) (ht : Phrase t us)
    (hc : t.head?.any (· ∈ delimiters) = true) : Phrase (s ++ t) (ts ++ us) := by
  cases t with
  | nil => simp at hc
  | cons c t => exact hs.append (by simpa using hc) ht

theorem Phrase.then_closed {s t : Text} {ts us : List Token} (hs : Phrase s ts) (ht : Closed t us)
    (hc : t.head?.any (· ∈ delimiters) = true) : Closed (s ++ t) (ts ++ us) := by
  cases t with
  | nil => simp at hc
  | cons c t => exact hs.append_closed (by simpa using hc) ht

theorem Phrase.tokens? {s : Text} {ts : List Token} (h : Phrase s ts) :
    Dart.tokens? s = some ts := by
  have hs := h [] delimited_nil
  rwa [List.append_nil, read_nil, show Mode.between.tokens? = some [] from rfl, Option.map_some,
    List.append_nil] at hs

/-! ## Fixed texts -/

/-- The signs with which no longer sign begins. -/
def loneSigns : Text := "()[]{},;:>".toList

/-- Whether nothing that follows can go on with what was read. -/
def Mode.isFirm : Mode → Bool
  | .between => true
  | .mark source => source.length == 1 && List.all source (· ∈ loneSigns)
  | _ => false

/-- Whether no delimiter goes on with what was read. -/
def Mode.isSoft (mode : Mode) : Bool :=
  mode.tokens?.isSome
    && delimiters.all fun c => (mode.goOn? c).isNone && !mode.clashes c

/-- The tokens of a text that is known to have some. -/
def lexed (s : Text) : List Token := (Dart.tokens? s).getD []

/-- The tokens of fixed source. -/
def fixed (source : String) : List Token := lexed source.toList

/-- Whether a text is read alike whatever follows it. -/
def isClosed (s : Text) : Bool := (run .between s).any fun before => before.2.isFirm

/-- Whether a text is read alike whatever follows it after a delimiter. -/
def isPhrase (s : Text) : Bool := (run .between s).any fun before => before.2.isSoft

theorem goOn?_of_isFirm {mode : Mode} (h : mode.isFirm = true) (c : Char) :
    mode.goOn? c = none ∧ mode.clashes c = false := by
  cases mode with
  | between => exact ⟨rfl, rfl⟩
  | mark source =>
      simp only [Mode.isFirm, Bool.and_eq_true, beq_iff_eq] at h
      obtain ⟨d, rfl⟩ := List.length_eq_one_iff.mp h.1
      refine ⟨?_, rfl⟩
      have hd : d ∈ loneSigns := by simpa using h.2
      have hlone : ∀ d ∈ loneSigns, d ≠ '.' ∧ ∀ s ∈ operators, s.head? ≠ some d :=
        Text.forall_of_all (by decide)
      obtain ⟨hpoint, hoperator⟩ := hlone d hd
      have hmem : [d, c] ∉ operators := fun hm => hoperator _ hm rfl
      simp [Mode.goOn?, hpoint, hmem]
  | _ => simp [Mode.isFirm] at h

theorem Phrase.lexed {s : Text} {ts : List Token} (h : Phrase s ts) : lexed s = ts := by
  rw [Lexer.lexed, h.tokens?, Option.getD_some]

theorem closed_of_run {s : Text} {before : List Token} {mode : Mode}
    (hrun : run .between s = some (before, mode)) (hfirm : mode.isFirm = true)
    {tokens : List Token} (hmode : mode.tokens? = some tokens) : Closed s (before ++ tokens) := by
  intro t
  have hstops := read_of_stops (t := t) hmode fun c _ => goOn?_of_isFirm hfirm c
  rw [read_append, hrun, Option.bind_some, hstops, map_append_append]

theorem phrase_of_run {s : Text} {before : List Token} {mode : Mode}
    (hrun : run .between s = some (before, mode)) (hsoft : mode.isSoft = true)
    {tokens : List Token} (hmode : mode.tokens? = some tokens) : Phrase s (before ++ tokens) := by
  intro t ht
  have hstops := read_of_stops (t := t) hmode fun c hc => by
    simpa using List.all_eq_true.mp (Bool.and_eq_true_iff.mp hsoft).2 c (ht c hc)
  rw [read_append, hrun, Option.bind_some, hstops, map_append_append]

/-- A phrase whose first character ends what stands before it. -/
theorem Phrase.after {s t : Text} {before ended ts : List Token} {mode : Mode} (ht : Phrase t ts)
    (hrun : run .between s = some (before, mode)) (hmode : mode.tokens? = some ended)
    (hstop : ∃ c rest, t = c :: rest ∧ mode.goOn? c = none ∧ mode.clashes c = false) :
    Phrase (s ++ t) (before ++ ended ++ ts) := by
  intro u hu
  obtain ⟨c, rest, rfl, hstop⟩ := hstop
  have hstops := read_of_stops (t := c :: rest ++ u) hmode fun d hd => by
    obtain rfl : c = d := by simpa using hd
    exact hstop
  rw [List.append_assoc, read_append, hrun, Option.bind_some, hstops, ht u hu, map_append_append,
    map_append_append]

theorem lexed_of_run {s : Text} {before : List Token} {mode : Mode}
    (hrun : run .between s = some (before, mode)) {tokens : List Token}
    (hmode : mode.tokens? = some tokens) : lexed s = before ++ tokens := by
  simp [lexed, Dart.tokens?, read, hrun, hmode]

theorem closed_lexed {s : Text} (h : isClosed s = true) : Closed s (lexed s) := by
  rw [isClosed, Option.any_eq_true] at h
  obtain ⟨⟨before, mode⟩, hrun, hfirm⟩ := h
  obtain ⟨tokens, hmode⟩ : ∃ tokens, mode.tokens? = some tokens := by
    cases mode <;> simp [Mode.tokens?, Mode.isFirm] at hfirm ⊢
  rw [lexed_of_run hrun hmode]
  exact closed_of_run hrun hfirm hmode

/-- The tokens of a fixed text, computed. -/
theorem closed_of_lexed {s : Text} {ts : List Token} (hclosed : isClosed s = true)
    (hlexed : lexed s = ts) : Closed s ts := hlexed ▸ closed_lexed hclosed

/-- A fixed text with the tokens of another one. Both are given by their characters, for which the
readers need not take a string apart. -/
theorem closed_of_texts {source plain : String} {s t : Text} (hs : source = String.ofList s)
    (ht : plain = String.ofList t) (hclosed : isClosed s = true) (hlexed : lexed s = lexed t) :
    Closed source.toList (fixed plain) := by
  rw [fixed, hs, ht, String.toList_ofList, String.toList_ofList]
  exact closed_of_lexed hclosed hlexed

theorem phrase_lexed {s : Text} (h : isPhrase s = true) : Phrase s (lexed s) := by
  rw [isPhrase, Option.any_eq_true] at h
  obtain ⟨⟨before, mode⟩, hrun, hsoft⟩ := h
  obtain ⟨tokens, hmode⟩ := Option.isSome_iff_exists.mp (Bool.and_eq_true_iff.mp hsoft).1
  rw [lexed_of_run hrun hmode]
  exact phrase_of_run hrun hsoft hmode

end Lexer

end CanvasFlutter.Dart
