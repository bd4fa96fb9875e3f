import CanvasFlutter.Proofs.RouteTable.Braces
import CanvasFlutter.Proofs.Text.Lines
import CanvasFlutter.RouteTable.Document

namespace CanvasFlutter

/-!
# `CanvasFlutter.Proofs.RouteTable.CodePart` — where a line ends a statement

Whether a line ends a statement is read off the last visible character in front of its first
comment. A line without comments is judged by its last character; a line with an opening brace is
judged by what stands before the brace, or else by what follows it.

## Contents
- **Comments.** `Uncommented` texts are all code; `codePart_of_uncommented`.
- **Braces.** `endsStatement_of_brace`: a line cut after an opening brace ends a statement only if
  the whole line does.
-/

/-! ## Comments -/

/-- A character that begins no comment stays. -/
theorem beforeComment_cons {state next : Scanner.State} {c : Char} {t : Text}
    (h : state.next c t.head? = next) (hline : next ≠ .lineComment)
    (hblock : next ≠ .blockOpening) :
    beforeComment state (c :: t) = c :: beforeComment next t := by
  rw [beforeComment, h]
  cases next with
  | lineComment => exact absurd rfl hline
  | blockOpening => exact absurd rfl hblock
  | _ => rfl

/-- A text in code that begins no comment and after which the scanner is in code again. -/
def Uncommented (s : Text) : Prop :=
  ∀ t, beforeComment .code (s ++ t) = s ++ beforeComment .code t

theorem uncommented_nil : Uncommented [] := fun _ => rfl

theorem Uncommented.append {s t : Text} (hs : Uncommented s) (ht : Uncommented t) :
    Uncommented (s ++ t) := by
  intro u
  rw [List.append_assoc, hs, ht, List.append_assoc]

theorem uncommented_of_isPlain {c : Char} (h : Scanner.isPlain c = true) : Uncommented [c] := by
  intro t
  exact beforeComment_cons (Scanner.next_code_of_isPlain h _) (by simp) (by simp)

theorem uncommented_of_all_isPlain {s : Text} (h : ∀ c ∈ s, Scanner.isPlain c = true) :
    Uncommented s := by
  induction s with
  | nil => exact uncommented_nil
  | cons c s ih =>
      exact (uncommented_of_isPlain (h c (by simp))).append (ih fun d hd => h d (by simp [hd]))

/-- Within a string no comment begins. -/
theorem beforeComment_quoted {q : Char} {s : Text} (h : ∀ c ∈ s, c ≠ q ∧ c ≠ '\\') (t : Text) :
    beforeComment (.quoted q) (s ++ q :: t) = s ++ q :: beforeComment .code t := by
  induction s with
  | nil => simp [beforeComment, Scanner.State.next]
  | cons c s ih =>
      have hc := h c (by simp)
      have hnext : ∀ f, (Scanner.State.quoted q).next c f = .quoted q := fun f => by
        simp [Scanner.State.next, hc.1, hc.2]
      rw [List.cons_append, beforeComment_cons (hnext _) (by simp) (by simp),
        ih fun d hd => h d (by simp [hd])]
      rfl

/-- A string without quotes or backslashes in it. -/
theorem uncommented_string {s : Text} (h : ∀ c ∈ s, c ≠ '\'' ∧ c ≠ '\\') :
    Uncommented ('\'' :: (s ++ ['\''])) := by
  intro t
  have hnext : ∀ f, Scanner.State.code.next '\'' f = .quoted '\'' := fun _ => rfl
  rw [List.cons_append, List.append_assoc, List.singleton_append,
    beforeComment_cons (hnext _) (by simp) (by simp), beforeComment_quoted h]
  simp

theorem codePart_of_uncommented {s : Text} (h : Uncommented s) : codePart s = Text.trim s := by
  have := h []
  rw [List.append_nil, beforeComment, List.append_nil] at this
  rw [codePart, this]

theorem endsStatement_of_uncommented {s : Text} (h : Uncommented s) (ht : Text.Trimmed s) :
    endsStatement s = Text.endsWith ';' s := by
  rw [endsStatement, codePart_of_uncommented h, ht.eq]

/-- A line without a line feed is its own only line. -/
theorem lines_of_not_mem {line : Text} (h : '\n' ∉ line) (hne : line ≠ []) :
    Text.lines line = [line] := by
  have hmem : ∀ rest, line.reverse ≠ '\n' :: rest := fun rest hr => h (by
    rw [← List.mem_reverse, hr]
    exact List.mem_cons_self)
  have hend : Text.dropLineEnd line = line := by
    rw [Text.dropLineEnd]
    split
    · next hr => exact absurd hr (hmem _)
    · next hr => exact absurd hr (hmem _)
    · rfl
  rw [Text.lines, Text.pieces_of_not_mem h hne, List.map_singleton, hend]

/-- Of a statement on a single line that is all code, the code is the line itself. -/
theorem isPageImport_of_oneLine {line : Text} (h : '\n' ∉ line) (hne : line ≠ [])
    (hcode : Uncommented line) (ht : Text.Trimmed line) :
    (Directive.statement line).isPageImport = Pattern.isPageImport line := by
  have hpart : [line].map codePart = [line] := by
    rw [List.map_singleton, codePart_of_uncommented hcode, ht.eq]
  rw [Directive.isPageImport, lines_of_not_mem h hne, hpart]
  simp [hne, Text.joinWith]

/-! ## Braces -/

theorem next_brace (state : Scanner.State) (following : Option Char) :
    state.next '{' following = state.next '{' none := by
  cases state <;> simp [Scanner.State.next]

/-- The first comment stands before a brace, whatever follows that, or after it. -/
theorem beforeComment_append_brace (state : Scanner.State) (u : Text) :
    (∃ x, ∀ v, beforeComment state (u ++ '{' :: v) = x) ∨
      ∃ state', ∀ v, beforeComment state (u ++ '{' :: v) = u ++ '{' :: beforeComment state' v := by
  induction u generalizing state with
  | nil =>
      simp only [List.nil_append, beforeComment, next_brace state]
      cases h : state.next '{' none with
      | lineComment => exact .inl ⟨[], fun _ => rfl⟩
      | blockOpening => exact .inl ⟨[], fun _ => rfl⟩
      | _ => exact .inr ⟨_, fun _ => rfl⟩
  | cons c u ih =>
      have hhead : ∀ v, (u ++ '{' :: v).head? = (u ++ ['{']).head? := fun v => by cases u <;> rfl
      simp only [List.cons_append, beforeComment, hhead]
      -- Whatever state the character leads to, the rest is cut in front of the brace or behind it.
      have later : ∀ state', (∃ x, ∀ v, c :: beforeComment state' (u ++ '{' :: v) = x) ∨
          ∃ state'', ∀ v, c :: beforeComment state' (u ++ '{' :: v)
            = c :: (u ++ '{' :: beforeComment state'' v) := by
        intro state'
        rcases ih state' with ⟨x, hx⟩ | ⟨state'', h⟩
        · exact .inl ⟨c :: x, fun v => by rw [hx]⟩
        · exact .inr ⟨state'', fun v => by rw [h]⟩
      cases state.next c (u ++ ['{']).head? with
      | lineComment => exact .inl ⟨[], fun _ => rfl⟩
      | blockOpening => exact .inl ⟨[], fun _ => rfl⟩
      | _ => exact later _

/-- A line that is cut after an opening brace ends a statement only if the whole line does. -/
theorem endsStatement_of_brace {u : Text} (h : endsStatement (u ++ ['{']) = true) (v : Text) :
    endsStatement (u ++ '{' :: v) = true := by
  rcases beforeComment_append_brace .code u with ⟨x, hx⟩ | ⟨state, hcut⟩
  · rw [endsStatement, codePart, hx] at h ⊢
    exact h
  · -- Nothing follows the brace, so the line ends with it.
    rw [endsStatement, codePart, hcut, beforeComment,
      Text.trim_append_visible u (c := '{') (by decide)] at h
    simp [Text.endsWith, Text.trimEnd] at h

end CanvasFlutter
