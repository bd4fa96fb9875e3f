import CanvasFlutter.Dart.Layout
import CanvasFlutter.Proofs.Dart.Spelling
import CanvasFlutter.Proofs.Text.Lines

namespace CanvasFlutter.Dart

/-!
# `CanvasFlutter.Proofs.Dart.Indent` — moving a block to the right changes no token

A block is cut into lines and put together again whenever it is placed inside another one. That
loses nothing but a carriage return at the end of a line or a line feed at the end of the block, and
what it adds are spaces after line feeds, which separate tokens already.

## Contents
- **Blocks.** `Block` texts have neither; `indent_line`, `indentTail_line`.
- **Parts of blocks.** `shift` moves a block one character at a time, from which it follows that a
  block inside another one is moved with it (`indentTail_infix`).
- **Tokens.** `read_indent`, `read_indentTail`.
-/

/-! ## Blocks -/

namespace Layout

/-- A text that loses nothing when it is cut into lines. -/
structure Block (t : Text) : Prop where
  noReturn : '\r' ∉ t
  noLastFeed : t.getLast? ≠ some '\n'

theorem block_nil : Block [] := ⟨by simp, by simp⟩

/-- A block is one line, or a line and a block that is not empty. -/
theorem Block.induction {motive : ∀ t, Block t → Prop}
    (last : ∀ l (h : Block l), '\n' ∉ l → motive l h)
    (line : ∀ l t (h : Block (l ++ '\n' :: t)) (ht : Block t), '\n' ∉ l → t ≠ [] →
      motive t ht → motive (l ++ '\n' :: t) h) (t : Text) (h : Block t) : motive t h := by
  induction t using Text.lineInduction with
  | last l hl => exact last l h hl
  | line l t hl ih =>
      have hne : t ≠ [] := by
        rintro rfl
        exact h.noLastFeed (by simp)
      have ht : Block t := by
        refine ⟨fun hc => h.noReturn (by simp [hc]), fun hc => h.noLastFeed ?_⟩
        rw [Text.getLast?_append_right l (by simp), List.getLast?_cons_of_ne_nil hne, hc]
      exact line l t h ht hl hne (ih ht)

theorem lines_line {l : Text} (hn : '\n' ∉ l) (hr : '\r' ∉ l) (t : Text) :
    Text.lines (l ++ '\n' :: t) = l :: Text.lines t := by
  have hdrop : Text.dropLineEnd (l ++ ['\n']) = l := by
    rw [Text.dropLineEnd, List.reverse_append]
    cases hl : l.reverse with
    | nil => simp_all
    | cons c rest =>
        have hc : c ≠ '\r' := by
          rintro rfl
          exact hr (List.mem_reverse.mp (hl ▸ List.mem_cons_self))
        simp [← List.reverse_eq_iff.mpr hl.symm, hc]
  rw [Text.lines, Text.pieces_line_append hn, List.map_cons, hdrop, Text.lines]

theorem lines_last {l : Text} (hn : '\n' ∉ l) (hne : l ≠ []) : Text.lines l = [l] := by
  have hdrop : Text.dropLineEnd l = l := by
    rw [Text.dropLineEnd]
    cases hl : l.reverse with
    | nil => rfl
    | cons c rest =>
        have hc : c ≠ '\n' := by
          rintro rfl
          exact hn (List.mem_reverse.mp (hl ▸ List.mem_cons_self))
        simp [hc]
  rw [Text.lines, Text.pieces_of_not_mem hn hne, List.map_singleton, hdrop]

theorem lines_ne_nil {t : Text} (h : t ≠ []) : Text.lines t ≠ [] := by
  cases t with
  | nil => exact absurd rfl h
  | cons c t => simpa [Text.lines] using Text.pieces_ne_nil

theorem indent_line {l t : Text} (hn : '\n' ∉ l) (hr : '\r' ∉ l) (ht : t ≠ []) (n : Nat) :
    indent (l ++ '\n' :: t) n = pad n l ++ '\n' :: indent t n := by
  rw [indent, lines_line hn hr, List.map_cons, indent]
  cases hlines : (Text.lines t).map (pad n) with
  | nil => exact absurd (List.map_eq_nil_iff.mp hlines) (lines_ne_nil ht)
  | cons _ _ => simp [Text.joinWith]

theorem indent_last {l : Text} (hn : '\n' ∉ l) (n : Nat) : indent l n = pad n l := by
  by_cases hne : l = []
  · rw [hne]
    rfl
  · rw [indent, lines_last hn hne]
    rfl

theorem indentTail_line {l t : Text} (hn : '\n' ∉ l) (hr : '\r' ∉ l) (ht : t ≠ []) (n : Nat) :
    indentTail (l ++ '\n' :: t) n = l ++ '\n' :: indent t n := by
  have hjoin : ∀ lines : List Text, lines ≠ [] →
      lines.flatMap (fun line => '\n' :: pad n line)
        = '\n' :: Text.joinWith ['\n'] (lines.map (pad n)) := by
    intro lines
    induction lines with
    | nil => simp
    | cons line more ih =>
        intro _
        cases more with
        | nil => simp [Text.joinWith]
        | cons next more => rw [List.flatMap_cons, ih (by simp)]; simp [Text.joinWith]
  rw [indentTail, lines_line hn hr]
  simp only [hjoin _ (lines_ne_nil ht), indent]

theorem indentTail_last {l : Text} (hn : '\n' ∉ l) (n : Nat) : indentTail l n = l := by
  by_cases hne : l = []
  · rw [hne]
    rfl
  · rw [indentTail, lines_last hn hne]
    simp

/-! ## Blocks inside blocks -/

theorem Block.prepend {t : Text} (h : Block t) (hne : t ≠ []) {s : Text} (hs : '\r' ∉ s) :
    Block (s ++ t) :=
  ⟨by simp [hs, h.noReturn], by
    rw [Text.getLast?_append_right s hne]
    exact h.noLastFeed⟩

theorem Block.append {s t : Text} (hs : Block s) (ht : Block t) : Block (s ++ t) := by
  by_cases hne : t = []
  · rwa [hne, List.append_nil]
  · exact ht.prepend hne hs.noReturn

theorem block_of_noBreak {t : Text} (h : ∀ c ∈ t, c ≠ '\n' ∧ c ≠ '\r') : Block t :=
  ⟨fun hr => (h _ hr).2 rfl, fun hn => (h _ (List.mem_of_getLast? hn)).1 rfl⟩

/-- That no line ends in a text, as a test that runs. -/
def isUnbroken (t : Text) : Bool := t.all fun c => c != '\n' && c != '\r'

theorem block_of_isUnbroken {t : Text} (h : isUnbroken t = true) : Block t :=
  block_of_noBreak fun c hc => by
    simpa [bne_iff_ne] using List.all_eq_true.mp h c hc

theorem Block.cons {t : Text} (h : Block t) {c : Char} (hn : c ≠ '\n') (hr : c ≠ '\r') :
    Block (c :: t) :=
  (block_of_noBreak (t := [c]) (by simpa using ⟨hn, hr⟩)).append h

theorem replicate_space_noReturn (n : Nat) : '\r' ∉ List.replicate n ' ' := fun h => by
  simpa using (List.mem_replicate.mp h).2

theorem Block.pad {l : Text} (h : Block l) (n : Nat) : Block (pad n l) := by
  cases l with
  | nil => exact block_nil
  | cons c l => exact h.prepend (by simp) (replicate_space_noReturn n)

theorem Block.newline {t : Text} (h : Block t) (hne : t ≠ []) : Block ('\n' :: t) :=
  h.prepend (s := ['\n']) hne (by decide)

theorem indent_ne_nil {t : Text} (h : t ≠ []) (ht : Block t) (n : Nat) : indent t n ≠ [] := by
  induction t, ht using Block.induction with
  | last l hl hn =>
      rw [indent_last hn, pad]
      simp_all
  | line l t hl ht hn hne ih =>
      rw [indent_line hn (fun hr => hl.noReturn (by simp [hr])) hne]
      simp

theorem Block.indent {t : Text} (h : Block t) (n : Nat) : Block (indent t n) := by
  induction t, h using Block.induction with
  | last l h hn =>
      rw [indent_last hn]
      exact h.pad n
  | line l t h ht hn hne ih =>
      have hr : '\r' ∉ l := fun hr => h.noReturn (by simp [hr])
      have hpad : '\r' ∉ Layout.pad n l := by
        cases l <;> simp_all [List.mem_replicate]
      rw [indent_line hn hr hne]
      exact (ih.newline (indent_ne_nil hne ht n)).prepend (by simp) hpad

theorem Block.indentTail {t : Text} (h : Block t) (n : Nat) : Block (indentTail t n) := by
  induction t, h using Block.induction with
  | last l h hn => rwa [indentTail_last hn]
  | line l t h ht hn hne ih =>
      have hr : '\r' ∉ l := fun hr => h.noReturn (by simp [hr])
      rw [indentTail_line hn hr hne]
      exact ((ht.indent n).newline (indent_ne_nil hne ht n)).prepend (by simp) hr

/-! ## Parts of blocks -/

/-- The spaces before a text that begins a line: none before another line feed or at the end. -/
def margin (n : Nat) : Text → Text
  | [] => []
  | c :: _ => if c = '\n' then [] else List.replicate n ' '

/-- A text with a margin after every line feed. It is what moves a block to the right
(`indentTail_eq_shift`), one character at a time. -/
def shift (n : Nat) : Text → Text
  | [] => []
  | c :: t => c :: ((if c = '\n' then margin n t else []) ++ shift n t)

theorem margin_append {t : Text} (hne : t ≠ []) (n : Nat) (u : Text) :
    margin n (t ++ u) = margin n t := by
  cases t with
  | nil => exact absurd rfl hne
  | cons c t => rfl

theorem shift_append_of_noFeed {s : Text} (h : '\n' ∉ s) (n : Nat) (t : Text) :
    shift n (s ++ t) = s ++ shift n t := by
  induction s with
  | nil => rfl
  | cons c s ih =>
      simp only [List.mem_cons, not_or] at h
      rw [List.cons_append, shift, if_neg (Ne.symm h.1), ih h.2]
      rfl

theorem shift_of_noFeed {t : Text} (h : '\n' ∉ t) (n : Nat) : shift n t = t := by
  simpa [shift] using shift_append_of_noFeed h n []

/-- What stands before a text keeps apart from it. -/
theorem exists_shift_append (n : Nat) (s t : Text) : ∃ s', shift n (s ++ t) = s' ++ shift n t := by
  induction s with
  | nil => exact ⟨[], rfl⟩
  | cons c s ih =>
      obtain ⟨s', hs'⟩ := ih
      exact ⟨c :: ((if c = '\n' then margin n (s ++ t) else []) ++ s'), by simp [shift, hs']⟩

theorem shift_append {t : Text} (h : t.getLast? ≠ some '\n') (n : Nat) (u : Text) :
    shift n (t ++ u) = shift n t ++ shift n u := by
  induction t with
  | nil => rfl
  | cons c t ih =>
      by_cases hne : t = []
      · subst hne
        have hc : c ≠ '\n' := by simpa using h
        simp [shift, hc]
      · rw [List.getLast?_cons_of_ne_nil hne] at h
        simp [shift, ih h, margin_append hne]

theorem indent_eq_shift {t : Text} (h : Block t) (n : Nat) : indent t n = margin n t ++ shift n t := by
  have hpad : ∀ l : Text, '\n' ∉ l → pad n l = margin n l ++ l := by
    intro l hl
    cases l with
    | nil => rfl
    | cons c l =>
        have hc : c ≠ '\n' := fun hc => hl (by simp [hc])
        simp [margin, hc]
  induction t, h using Block.induction with
  | last l h hn => rw [indent_last hn, hpad l hn, shift_of_noFeed hn]
  | line l t h ht hn hne ih =>
      have hr : '\r' ∉ l := fun hr => h.noReturn (by simp [hr])
      rw [indent_line hn hr hne, ih, hpad l hn, shift_append_of_noFeed hn]
      cases l with
      | nil => simp [shift, margin]
      | cons c l => simp [shift, margin]

theorem indentTail_eq_shift {t : Text} (h : Block t) (n : Nat) : indentTail t n = shift n t := by
  induction t, h using Block.induction with
  | last l h hn => rw [indentTail_last hn, shift_of_noFeed hn]
  | line l t h ht hn hne _ =>
      have hr : '\r' ∉ l := fun hr => h.noReturn (by simp [hr])
      rw [indentTail_line hn hr hne, indent_eq_shift ht, shift_append_of_noFeed hn]
      simp [shift]

theorem shift_zero (t : Text) : shift 0 t = t := by
  induction t with
  | nil => rfl
  | cons c t ih =>
      have hmargin : margin 0 t = [] := by cases t <;> simp [margin]
      simp [shift, ih, hmargin]

theorem shift_shift (m n : Nat) (t : Text) : shift m (shift n t) = shift (m + n) t := by
  induction t with
  | nil => rfl
  | cons c t ih =>
      by_cases hc : c = '\n'
      · subst hc
        cases t with
        | nil => rfl
        | cons d t =>
            by_cases hd : d = '\n'
            · simp_all [shift, margin]
            · have hspaces : '\n' ∉ List.replicate n ' ' := fun h => by
                simpa using (List.mem_replicate.mp h).2
              have hmargin : margin m (List.replicate n ' ' ++ shift n (d :: t))
                  = List.replicate m ' ' := by
                cases n <;> simp [margin, shift, hd, List.replicate_succ]
              have hfirst : ∀ k, shift k ('\n' :: d :: t)
                  = '\n' :: (List.replicate k ' ' ++ shift k (d :: t)) := fun k => by
                simp [shift, margin, hd]
              rw [hfirst, hfirst, shift, if_pos rfl, hmargin, shift_append_of_noFeed hspaces, ih,
                ← List.append_assoc, List.replicate_append_replicate]
      · simp [shift, hc, ih]

theorem indentTail_zero {t : Text} (h : Block t) : indentTail t 0 = t := by
  rw [indentTail_eq_shift h, shift_zero]

theorem indentTail_indentTail {t : Text} (h : Block t) (m n : Nat) :
    indentTail (indentTail t n) m = indentTail t (m + n) := by
  rw [indentTail_eq_shift (h.indentTail n), indentTail_eq_shift h, indentTail_eq_shift h,
    shift_shift]

/-- **A block inside another one is moved with it.** -/
theorem indentTail_infix {b t : Text} (hb : Block b) (ht : Block t) (h : b <:+: t) (n : Nat) :
    indentTail b n <:+: indentTail t n := by
  obtain ⟨s, u, rfl⟩ := h
  obtain ⟨s', hs'⟩ := exists_shift_append n s (b ++ u)
  rw [indentTail_eq_shift hb, indentTail_eq_shift ht, List.append_assoc, hs',
    shift_append hb.noLastFeed, ← List.append_assoc]
  exact ⟨s', shift n u, rfl⟩

theorem indentTail_infix_indent {t : Text} (h : Block t) (n : Nat) :
    indentTail t n <:+: indent t n := by
  rw [indentTail_eq_shift h, indent_eq_shift h]
  exact (List.suffix_append _ _).isInfix

end Layout

/-! ## Tokens -/

namespace Lexer

open Layout

theorem read_between_newline (t : Text) : read .between ('\n' :: t) = read .between t := by
  rw [read_cons, show Mode.between.step? '\n' = some ([], .between) from rfl]
  cases h : read .between t <;> simp [h]

theorem read_between_spaces (n : Nat) (t : Text) :
    read .between (List.replicate n ' ' ++ t) = read .between t := by
  induction n with
  | zero => rfl
  | succ n ih =>
      rw [List.replicate_succ, List.cons_append, read_cons,
        show Mode.between.step? ' ' = some ([], .between) from rfl]
      cases h : read .between t <;> simp [ih, h]

theorem read_between_pad (n : Nat) (l t : Text) :
    read .between (pad n l ++ t) = read .between (l ++ t) := by
  cases l with
  | nil => rfl
  | cons c l => rw [pad_cons, List.append_assoc, read_between_spaces]

/-- A line feed ends what stands before it, so how a line is read does not hang on the lines before
it. -/
theorem read_newline_congr (mode : Mode) {t u : Text}
    (h : read .between t = read .between u) : read mode ('\n' :: t) = read mode ('\n' :: u) := by
  cases hmode : mode.tokens? with
  | some tokens =>
      have hstops := fun t => read_of_stops (t := '\n' :: t) hmode fun c hc => by
        obtain rfl : '\n' = c := by simpa using hc
        exact ⟨goOn?_break mode (.inl rfl), by cases mode <;> simp [Mode.clashes]⟩
      rw [hstops, hstops, read_between_newline, read_between_newline, h]
  | none =>
      have hnone : mode.step? '\n' = none := by
        simp [Mode.step?, goOn?_break mode (.inl rfl), hmode]
      rw [read_cons, read_cons, hnone, Option.bind_none, Option.bind_none]

theorem read_line_congr (mode : Mode) (l : Text) {t u : Text}
    (h : read .between t = read .between u) :
    read mode (l ++ '\n' :: t) = read mode (l ++ '\n' :: u) := by
  rw [read_append, read_append]
  cases run mode l with
  | none => rfl
  | some before => simp only [Option.bind_some, read_newline_congr before.2 h]

theorem read_indent {b : Text} (h : Block b) (n : Nat) (t : Text) :
    read .between (indent b n ++ t) = read .between (b ++ t) := by
  induction b, h using Block.induction with
  | last l h hn => rw [indent_last hn, read_between_pad]
  | line l b h hb hn hne ih =>
      have hr : '\r' ∉ l := fun hr => h.noReturn (by simp [hr])
      simp only [indent_line hn hr hne, List.append_assoc, List.cons_append]
      rw [read_between_pad, read_line_congr .between l ih]

/-- **Moving a block to the right changes no token**, whatever it stands behind. -/
theorem read_indentTail {b : Text} (h : Block b) (mode : Mode) (n : Nat) (t : Text) :
    read mode (indentTail b n ++ t) = read mode (b ++ t) := by
  induction b, h using Block.induction with
  | last l h hn => rw [indentTail_last hn]
  | line l b h hb hn hne _ =>
      have hr : '\r' ∉ l := fun hr => h.noReturn (by simp [hr])
      simp only [indentTail_line hn hr hne, List.append_assoc, List.cons_append]
      exact read_line_congr mode l (read_indent hb n t)

theorem Phrase.indentTail {b : Text} {ts : List Token} (h : Phrase b ts) (hb : Block b) (n : Nat) :
    Phrase (indentTail b n) ts := fun t ht => by
  rw [read_indentTail hb, h t ht]

theorem Phrase.indent {b : Text} {ts : List Token} (h : Phrase b ts) (hb : Block b) (n : Nat) :
    Phrase (indent b n) ts := fun t ht => by
  rw [read_indent hb, h t ht]

end Lexer

end CanvasFlutter.Dart
