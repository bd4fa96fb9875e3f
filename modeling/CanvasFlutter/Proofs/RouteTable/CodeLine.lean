import CanvasFlutter.Proofs.RouteTable.Search
import CanvasFlutter.Proofs.RouteTable.Render
import CanvasFlutter.Proofs.Text.Visible

namespace CanvasFlutter

/-!
# `CanvasFlutter.Proofs.RouteTable.CodeLine` — the lines that begin in code

Whether a line begins in code is decided by all that stands before it. Lines that leave every string
and every comment as they found it may be put between others: they begin in code where they are put
in code, and nothing changes for the lines around them.

## Contents
- **Scanning on.** `State.after`, `stateAfter`; `mark_append`.
- **Lines.** `CodeLine`; `codeLines`, the same as a list (`codeLine_iff`).
- **Quiet texts.** `Steady` states, `Quiet` texts; `quiet_quoted`.
- **Insertion.** `mem_codeLines_insert`.
-/

namespace Scanner

/-! ## Scanning on -/

/-- Where a character after this text stands. -/
def State.after : State → Text → State
  | s, [] => s
  | s, c :: rest => (s.next c rest.head?).after rest

/-- Where a character after these pieces of a text stands. -/
def stateAfter (s : State) (pieces : List Text) : State := pieces.foldl State.after s

@[simp] theorem after_nil (s : State) : s.after [] = s := rfl

@[simp] theorem stateAfter_nil (s : State) : stateAfter s [] = s := rfl

@[simp] theorem stateAfter_cons (s : State) (piece : Text) (pieces : List Text) :
    stateAfter s (piece :: pieces) = stateAfter (s.after piece) pieces := rfl

/-- What follows a line feed does not matter to it. -/
theorem next_newline (s : State) (following : Option Char) :
    s.next '\n' following = s.next '\n' none := by
  cases s <;> simp [State.next]

theorem head?_append_newline (l t : Text) : (l ++ '\n' :: t).head? = (l ++ ['\n']).head? := by
  cases l <;> rfl

/-- A line feed cuts the marks of a text. -/
theorem mark_line_append (s : State) (l t : Text) :
    mark s (l ++ '\n' :: t) = mark s (l ++ ['\n']) ++ mark (s.after (l ++ ['\n'])) t := by
  induction l generalizing s with
  | nil => simp [mark, State.after, next_newline s t.head?]
  | cons c l ih =>
      simp only [List.cons_append, mark, State.after]
      rw [head?_append_newline, ih]

end Scanner

namespace Text

/-- A text of whole lines. -/
def IsWhole (t : Text) : Prop := t = [] ∨ ∃ s, t = s ++ ['\n']

theorem isWhole_nil : IsWhole [] := .inl rfl

theorem isWhole_append_newline (t : Text) : IsWhole (t ++ ['\n']) := .inr ⟨t, rfl⟩

theorem IsWhole.append {a b : Text} (ha : IsWhole a) (hb : IsWhole b) : IsWhole (a ++ b) := by
  obtain rfl | ⟨s, rfl⟩ := hb
  · rwa [List.append_nil]
  · rw [← List.append_assoc]
    exact isWhole_append_newline _

theorem isWhole_onLines (texts : List Text) : IsWhole (RouteDocument.onLines texts) := by
  induction texts with
  | nil => exact isWhole_nil
  | cons t texts ih => exact (isWhole_append_newline t).append ih

/-- Whole lines are cut into pieces apart from what follows them. -/
theorem pieces_whole_append {a : Text} (h : IsWhole a) (t : Text) :
    pieces (a ++ t) = pieces a ++ pieces t := by
  obtain rfl | ⟨s, rfl⟩ := h
  · rfl
  · rw [List.append_assoc, List.singleton_append]
    induction s using lineInduction with
    | last l hl =>
        rw [pieces_line_append hl, pieces_line_append hl]
        rfl
    | line l s hl ih =>
        rw [List.append_assoc, List.cons_append, pieces_line_append hl, ih, List.append_assoc,
          List.cons_append, pieces_line_append hl]
        rfl

/-- The pieces of whole lines are lines with their ends. -/
theorem exists_line_of_mem_pieces {a : Text} (h : IsWhole a) {p : Text} (hp : p ∈ pieces a) :
    ∃ l, p = l ++ ['\n'] := by
  obtain rfl | ⟨s, rfl⟩ := h
  · cases hp
  · induction s using lineInduction with
    | last l hl =>
        rw [pieces_line_append hl] at hp
        obtain rfl : p = l ++ ['\n'] := by simpa [pieces] using hp
        exact ⟨l, rfl⟩
    | line l s hl ih =>
        rw [List.append_assoc, List.cons_append, pieces_line_append hl] at hp
        rcases List.mem_cons.mp hp with rfl | hp
        · exact ⟨l, rfl⟩
        · exact ih hp

/-- All pieces before the last one are whole lines. -/
theorem isWhole_of_pieces_eq_append {t : Text} {a b : List Text} {p : Text}
    (h : pieces t = a ++ p :: b) : IsWhole a.flatten := by
  induction t using lineInduction generalizing a with
  | last l hl =>
      by_cases hne : l = []
      · subst hne
        cases a <;> cases h
      · rw [pieces_of_not_mem hl hne] at h
        cases a with
        | nil => exact isWhole_nil
        | cons q a => simp at h
  | line l t hl ih =>
      rw [pieces_line_append hl] at h
      cases a with
      | nil => exact isWhole_nil
      | cons q a =>
          obtain ⟨rfl, hrest⟩ := List.cons.inj h
          rw [List.flatten_cons]
          exact (isWhole_append_newline l).append (ih hrest)

theorem ne_nil_of_mem_pieces {t p : Text} (h : p ∈ pieces t) : p ≠ [] := by
  induction t using lineInduction with
  | last l hl =>
      by_cases hne : l = []
      · subst hne
        cases h
      · rw [pieces_of_not_mem hl hne] at h
        exact List.mem_singleton.mp h ▸ hne
  | line l t hl ih =>
      rw [pieces_line_append hl] at h
      rcases List.mem_cons.mp h with rfl | h
      · simp
      · exact ih h

end Text

namespace Scanner

open Text Pattern

/-- Whole lines are marked apart from what follows them. -/
theorem mark_append {a : Text} (h : IsWhole a) (s : State) (t : Text) :
    mark s (a ++ t) = mark s a ++ mark (s.after a) t := by
  obtain rfl | ⟨l, rfl⟩ := h
  · rfl
  · rw [List.append_assoc, List.singleton_append]
    exact mark_line_append s l t

theorem after_append {a : Text} (h : IsWhole a) (s : State) (t : Text) :
    s.after (a ++ t) = (s.after a).after t := by
  obtain rfl | ⟨l, rfl⟩ := h
  · rfl
  · rw [List.append_assoc, List.singleton_append]
    induction l generalizing s with
    | nil => simp [State.after, next_newline s t.head?]
    | cons c l ih =>
        simp only [List.cons_append, State.after]
        rw [head?_append_newline, ih]

/-- Piece by piece the scanner goes on as over the text. -/
theorem stateAfter_eq_after {pieces : List Text} (h : ∀ p ∈ pieces, ∃ l, p = l ++ ['\n'])
    (s : State) : stateAfter s pieces = s.after pieces.flatten := by
  induction pieces generalizing s with
  | nil => rfl
  | cons p pieces ih =>
      obtain ⟨l, rfl⟩ := h p (by simp)
      rw [stateAfter_cons, List.flatten_cons, after_append (isWhole_append_newline l),
        ih fun q hq => h q (by simp [hq])]

theorem stateAfter_pieces {a : Text} (h : IsWhole a) (s : State) :
    stateAfter s (pieces a) = s.after a := by
  rw [stateAfter_eq_after fun p hp => exists_line_of_mem_pieces h hp, flatten_pieces]

/-! ## Lines -/

/-- A line of a text, trimmed, that begins outside of all strings and comments. -/
def CodeLine (t line : Text) : Prop :=
  ∃ before piece after, pieces t = before ++ piece :: after
    ∧ isCodeAt t before.flatten.length = true ∧ trim piece = line

/-- The trimmed lines among the pieces of a text that begin in code, if the scanner begins in this
state. -/
def codeLines : State → List Text → List Text
  | _, [] => []
  | s, piece :: rest => (if s = .code then [trim piece] else []) ++ codeLines (s.after piece) rest

theorem codeLines_append (s : State) (a b : List Text) :
    codeLines s (a ++ b) = codeLines s a ++ codeLines (stateAfter s a) b := by
  induction a generalizing s with
  | nil => rfl
  | cons piece a ih => rw [List.cons_append, codeLines, ih, codeLines, stateAfter_cons,
      List.append_assoc]

/-- The first character after some pieces is in code exactly if the scanner is after them. -/
theorem isCodeAt_flatten_iff {t : Text} {before after : List Text} {piece : Text}
    (h : pieces t = before ++ piece :: after) :
    isCodeAt t before.flatten.length = true ↔ stateAfter .code before = .code := by
  have hwhole := isWhole_of_pieces_eq_append h
  have hpieces : stateAfter .code before = State.code.after before.flatten := by
    have hsplit : pieces before.flatten = before := by
      have ht : t = before.flatten ++ (piece :: after).flatten := by
        rw [← flatten_pieces t, h, List.flatten_append]
      rw [ht, pieces_whole_append hwhole] at h
      have hrest : pieces (piece :: after).flatten = piece :: after :=
        pieces_flatten_of_eq_append (a := before) (t := t) (by
          rw [ht, pieces_whole_append hwhole, h])
      rw [hrest] at h
      exact List.append_cancel_right h
    rw [← stateAfter_pieces hwhole, hsplit]
  have hne : piece ≠ [] := ne_nil_of_mem_pieces (t := t) (by rw [h]; simp)
  obtain ⟨c, rest, rfl⟩ := List.exists_cons_of_ne_nil hne
  have ht : t = before.flatten ++ c :: (rest ++ after.flatten) := by
    rw [← flatten_pieces t, h]
    simp
  have hlength : before.flatten.length = (mark .code before.flatten).length := by
    conv => lhs; rw [← map_fst_mark .code before.flatten, List.length_map]
  rw [hpieces, isCodeAt, isCodeFrom, ht, mark_append hwhole, hlength,
    List.getElem?_append_right (Nat.le_refl _), Nat.sub_self]
  simp [mark]

/-- The lines that begin in code, as a list. -/
theorem codeLine_iff {t line : Text} : CodeLine t line ↔ line ∈ codeLines .code (pieces t) := by
  have hlist : ∀ (ps : List Text) (s : State), line ∈ codeLines s ps ↔
      ∃ before piece after, ps = before ++ piece :: after ∧ stateAfter s before = .code
        ∧ trim piece = line := by
    intro ps
    induction ps with
    | nil => simp [codeLines]
    | cons piece ps ih =>
        intro s
        rw [codeLines, List.mem_append, ih]
        constructor
        · rintro (hline | ⟨before, next, after, rfl, hstate, rfl⟩)
          · split at hline
            · next hs => exact ⟨[], piece, ps, rfl, hs, (List.mem_singleton.mp hline).symm⟩
            · cases hline
          · exact ⟨piece :: before, next, after, rfl, hstate, rfl⟩
        · rintro ⟨before, next, after, heq, hstate, rfl⟩
          cases before with
          | nil =>
              obtain ⟨rfl, rfl⟩ := List.cons.inj heq
              exact .inl (by rw [if_pos (by simpa using hstate)]; simp)
          | cons first before =>
              obtain ⟨rfl, rfl⟩ := List.cons.inj heq
              exact .inr ⟨before, next, after, rfl, hstate, rfl⟩
  rw [hlist]
  constructor
  · rintro ⟨before, piece, after, hpieces, hcode, hline⟩
    exact ⟨before, piece, after, hpieces, (isCodeAt_flatten_iff hpieces).mp hcode, hline⟩
  · rintro ⟨before, piece, after, hpieces, hcode, hline⟩
    exact ⟨before, piece, after, hpieces, (isCodeAt_flatten_iff hpieces).mpr hcode, hline⟩

/-- A line in code that is seen is a visible line. -/
theorem mem_visibleLines_of_codeLine {t line : Text} (h : CodeLine t line) (hne : line ≠ []) :
    line ∈ visibleLines t := by
  obtain ⟨before, piece, after, hpieces, -, rfl⟩ := h
  rw [visibleLines, visible, List.mem_filter]
  exact ⟨List.mem_map_of_mem (by rw [hpieces]; simp), by simpa using hne⟩

/-! ## Quiet texts -/

/-- Where the first character of a line can stand. -/
inductive Steady : State → Prop where
  | code : Steady .code
  | comment : Steady .blockComment
  | quoted {q : Char} (hq : q = '\'' ∨ q = '"') : Steady (.quoted q)

/-- The quotes of a state are quotes. -/
def HasQuotes : State → Prop
  | .quoted q => q = '\'' ∨ q = '"'
  | .escaped q => q = '\'' ∨ q = '"'
  | _ => True

theorem Steady.hasQuotes {s : State} (h : Steady s) : HasQuotes s := by
  cases h with
  | code => trivial
  | comment => trivial
  | quoted hq => exact hq

theorem HasQuotes.next {s : State} (h : HasQuotes s) (c : Char) (following : Option Char) :
    HasQuotes (s.next c following) := by
  cases s with
  | code =>
      unfold State.next
      dsimp only
      split
      · next hc => exact hc
      · split
        · trivial
        · split <;> trivial
  | quoted q =>
      unfold State.next
      dsimp only
      split
      · trivial
      · split <;> exact h
  | escaped q => exact h
  | lineComment =>
      unfold State.next
      dsimp only
      split <;> trivial
  | blockOpening => trivial
  | blockComment =>
      unfold State.next
      dsimp only
      split <;> trivial
  | blockClosing => trivial

/-- After a line feed the next line can begin. -/
theorem steady_next_newline {s : State} (h : HasQuotes s) : Steady (s.next '\n' none) := by
  cases s with
  | quoted q =>
      have hq : '\n' ≠ q := by
        rcases h with rfl | rfl <;> decide
      simp only [State.next, if_neg hq]
      exact .quoted h
  | escaped q => exact .quoted h
  | code => exact .code
  | lineComment => exact .code
  | blockOpening => exact .comment
  | blockComment => exact .comment
  | blockClosing => exact .code

theorem steady_after_line {s : State} (h : HasQuotes s) (l : Text) :
    Steady (s.after (l ++ ['\n'])) := by
  induction l generalizing s with
  | nil => exact steady_next_newline h
  | cons c l ih => exact ih (h.next c _)

theorem Steady.after {s : State} (h : Steady s) {a : Text} (ha : IsWhole a) :
    Steady (s.after a) := by
  obtain rfl | ⟨l, rfl⟩ := ha
  · exact h
  · exact steady_after_line h.hasQuotes l

/-- A text that leaves every string and every comment as it found it, whatever follows. -/
def Quiet (b : Text) : Prop := ∀ s, Steady s → ∀ t, s.after (b ++ t) = s.after t

theorem quiet_nil : Quiet [] := fun _ _ _ => rfl

theorem Quiet.append {a b : Text} (ha : Quiet a) (hb : Quiet b) : Quiet (a ++ b) := by
  intro s hs t
  rw [List.append_assoc, ha s hs, hb s hs]

theorem Quiet.after_eq {b : Text} (h : Quiet b) {s : State} (hs : Steady s) : s.after b = s := by
  have := h s hs []
  rwa [List.append_nil] at this

/-- A character that no scanner state looks at. -/
def isInert (c : Char) : Bool := !(['\'', '"', '/', '*', '\\'].contains c)

theorem next_of_isInert {c : Char} (h : isInert c = true) {s : State} (hs : Steady s)
    (following : Option Char) : s.next c following = s := by
  simp [isInert] at h
  cases hs with
  | code => simp [State.next, h]
  | comment => simp [State.next, h]
  | quoted hq =>
      rcases hq with rfl | rfl <;> simp [State.next, h]

theorem quiet_of_isInert {c : Char} (h : isInert c = true) : Quiet [c] := by
  intro s hs t
  rw [List.singleton_append, State.after, next_of_isInert h hs]

theorem quiet_of_all_isInert {b : Text} (h : ∀ c ∈ b, isInert c = true) : Quiet b := by
  induction b with
  | nil => exact quiet_nil
  | cons c b ih =>
      exact (quiet_of_isInert (h c (by simp))).append (ih fun d hd => h d (by simp [hd]))

/-- A slash in front of an inert character begins no comment. -/
theorem quiet_slash {c : Char} (h : isInert c = true) : Quiet ['/', c] := by
  intro s hs t
  have hslash : s.next '/' (some c) = s := by
    simp [isInert] at h
    cases hs with
    | code => simp [State.next, h]
    | comment => simp [State.next]
    | quoted hq => rcases hq with rfl | rfl <;> simp [State.next]
  have hc := next_of_isInert h hs t.head?
  show (s.next '/' (some c)).after (c :: t) = s.after t
  rw [hslash, State.after, hc]

/-- A quiet text between single quotes. -/
theorem quiet_quoted {b : Text} (h : Quiet b) : Quiet ('\'' :: (b ++ ['\''])) := by
  intro s hs t
  have hopen : ∀ (s : State) (u : Text), s.after ('\'' :: u) = (s.next '\'' u.head?).after u :=
    fun _ _ => rfl
  rw [List.cons_append, List.append_assoc, List.singleton_append, hopen]
  cases hs with
  | code =>
      -- the quotes open and close a string
      rw [show State.code.next '\'' _ = .quoted '\'' from rfl, h _ (.quoted (.inl rfl)), hopen]
      rfl
  | comment => rw [show State.blockComment.next '\'' _ = .blockComment from rfl, h _ .comment]; rfl
  | quoted hq =>
      rcases hq with rfl | rfl
      · -- the quotes close a string and open another
        rw [show (State.quoted '\'').next '\'' _ = .code from rfl, h _ .code, hopen]
        rfl
      · rw [show (State.quoted '"').next '\'' _ = .quoted '"' from rfl, h _ (.quoted (.inr rfl))]
        rfl

/-! ## Insertion -/

/-- Quiet lines begin in code where they are put in code. -/
theorem codeLines_quiet {lines : List Text} (hquiet : ∀ l ∈ lines, Quiet l)
    (hlines : ∀ l ∈ lines, '\n' ∉ l) {s : State} (hs : Steady s) (t : Text) :
    codeLines s (pieces (RouteDocument.onLines lines ++ t))
      = (if s = .code then lines.map trim else []) ++ codeLines s (pieces t) := by
  induction lines with
  | nil => simp [RouteDocument.onLines]
  | cons l lines ih =>
      have hl : Quiet (l ++ ['\n']) := (hquiet l (by simp)).append (quiet_of_isInert (by decide))
      rw [RouteDocument.onLines_cons_append, pieces_line_append (hlines l (by simp)), codeLines,
        hl.after_eq hs, ih (fun m hm => hquiet m (by simp [hm])) fun m hm => hlines m (by simp [hm]),
        trim_append_blank (by decide)]
      split <;> simp

/-- **Insertion.** Quiet lines that are put between whole lines and what follows these begin in code
if they are put in code, and the others where they did. -/
theorem mem_codeLines_insert {a : Text} (ha : IsWhole a) {lines : List Text}
    (hquiet : ∀ l ∈ lines, Quiet l) (hlines : ∀ l ∈ lines, '\n' ∉ l) (t line : Text) :
    line ∈ codeLines .code (pieces (a ++ (RouteDocument.onLines lines ++ t)))
      ↔ line ∈ codeLines .code (pieces (a ++ t))
        ∨ (State.code.after a = .code ∧ line ∈ lines.map trim) := by
  have hsteady : Steady (State.code.after a) := Steady.code.after ha
  rw [pieces_whole_append ha, pieces_whole_append ha, codeLines_append, codeLines_append,
    stateAfter_pieces ha, codeLines_quiet hquiet hlines hsteady]
  simp only [List.mem_append]
  by_cases hcode : State.code.after a = .code
  · simp only [hcode, if_true, true_and]
    constructor
    · rintro (h | h | h)
      · exact .inl (.inl h)
      · exact .inr h
      · exact .inl (.inr h)
    · rintro ((h | h) | h)
      · exact .inl h
      · exact .inr (.inr h)
      · exact .inr (.inl h)
  · simp [hcode]

end Scanner

end CanvasFlutter
