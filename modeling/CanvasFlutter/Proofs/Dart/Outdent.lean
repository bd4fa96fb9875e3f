import CanvasFlutter.Proofs.Dart.Indent

namespace CanvasFlutter.Dart.Layout

/-!
# `CanvasFlutter.Proofs.Dart.Outdent` — moving a block to the right loses nothing

The lines of a block that has been moved are the lines of the block, each of them moved. So the
spaces can be taken away again, two moves are one move by both distances, and blocks that differ
still differ wherever they are placed.

## Contents
- **Lines.** `splitOn_indent`, `splitOn_indentTail`: what moving does to the lines of a block.
- **Moving back.** `outdent?`, `outdentTail?`; `outdent?_indent`, `outdentTail?_indentTail`.
- **Moving on.** `indent_indent`; `indentTail_indentTail` is shown beside the moves themselves.
- **Nesting.** `Move`, `place`: a block within blocks; `indentation_reversible`.
-/

variable {s t : Text}

/-! ## Lines -/

theorem newline_not_mem_pad {l : Text} (h : '\n' ∉ l) (n : Nat) : '\n' ∉ pad n l := by
  cases l with
  | nil => exact h
  | cons c l =>
      rw [pad_cons, List.mem_append, not_or]
      exact ⟨fun hspace => by simpa using (List.mem_replicate.mp hspace).2, h⟩

theorem splitOn_line {l : Text} (h : '\n' ∉ l) (t : Text) :
    (l ++ '\n' :: t).splitOn '\n' = l :: t.splitOn '\n' := by
  rw [List.splitOn_append_cons_self, List.splitOn_eq_singleton h]
  rfl

/-- The lines of a block that is moved are its lines moved. -/
theorem splitOn_indent (h : Block t) (n : Nat) :
    (indent t n).splitOn '\n' = (t.splitOn '\n').map (pad n) := by
  induction t, h using Block.induction with
  | last l h hn =>
      rw [indent_last hn, List.splitOn_eq_singleton hn,
        List.splitOn_eq_singleton (newline_not_mem_pad hn n)]
      rfl
  | line l t h ht hn hne ih =>
      have hr : '\r' ∉ l := fun hr => h.noReturn (by simp [hr])
      rw [indent_line hn hr hne, splitOn_line (newline_not_mem_pad hn n), splitOn_line hn, ih]
      rfl

/-- A block that begins in the middle of a line keeps its first line. -/
theorem splitOn_indentTail (h : Block t) (n : Nat) : ∃ first more,
    t.splitOn '\n' = first :: more
      ∧ (indentTail t n).splitOn '\n' = first :: more.map (pad n) := by
  induction t, h using Block.induction with
  | last l h hn =>
      refine ⟨l, [], List.splitOn_eq_singleton hn, ?_⟩
      rw [indentTail_last hn, List.splitOn_eq_singleton hn]
      rfl
  | line l t h ht hn hne _ =>
      have hr : '\r' ∉ l := fun hr => h.noReturn (by simp [hr])
      refine ⟨l, t.splitOn '\n', splitOn_line hn t, ?_⟩
      rw [indentTail_line hn hr hne, splitOn_line hn, splitOn_indent ht]

/-- A text is known by its lines. -/
theorem eq_of_splitOn_eq (h : s.splitOn '\n' = t.splitOn '\n') : s = t :=
  calc
    s = ['\n'].intercalate (s.splitOn '\n') := (List.intercalate_splitOn '\n').symm
    _ = ['\n'].intercalate (t.splitOn '\n') := by rw [h]
    _ = t := List.intercalate_splitOn '\n'

/-! ## Moving back -/

/-- A line moved back to the left. A line that is not empty must have the spaces in front. -/
def unpad? (spaces : Nat) (line : Text) : Option Text :=
  if line.isEmpty then some [] else Text.after? (List.replicate spaces ' ') line

/-- A block with every line moved back to the left. -/
def outdent? (block : Text) (spaces : Nat) : Option Text :=
  ((block.splitOn '\n').mapM (unpad? spaces)).map ['\n'].intercalate

/-- A block with every line after the first moved back to the left. -/
def outdentTail? (block : Text) (spaces : Nat) : Option Text :=
  match block.splitOn '\n' with
  | [] => some []
  | first :: more => (more.mapM (unpad? spaces)).map fun more => ['\n'].intercalate (first :: more)

theorem unpad?_pad (n : Nat) (l : Text) : unpad? n (pad n l) = some l := by
  cases l with
  | nil => rfl
  | cons c l =>
      rw [pad_cons, unpad?, Text.after?]
      simp

theorem mapM_unpad?_pad (n : Nat) (lines : List Text) :
    (lines.map (pad n)).mapM (unpad? n) = some lines := by
  induction lines with
  | nil => rfl
  | cons l lines ih => simp [unpad?_pad, ih]

theorem outdent?_indent (h : Block t) (n : Nat) : outdent? (indent t n) n = some t := by
  rw [outdent?, splitOn_indent h, mapM_unpad?_pad, Option.map_some, List.intercalate_splitOn]

theorem outdentTail?_indentTail (h : Block t) (n : Nat) :
    outdentTail? (indentTail t n) n = some t := by
  obtain ⟨first, more, hlines, hmoved⟩ := splitOn_indentTail h n
  rw [outdentTail?, hmoved]
  simp only [mapM_unpad?_pad, Option.map_some]
  rw [← hlines, List.intercalate_splitOn]

/-! ## Moving on -/

theorem pad_pad (m n : Nat) (l : Text) : pad m (pad n l) = pad (n + m) l := by
  cases l with
  | nil => rfl
  | cons c l =>
      have hspaces : List.replicate m ' ' ++ List.replicate n ' ' = List.replicate (n + m) ' ' := by
        rw [List.replicate_append_replicate, Nat.add_comm]
      rw [pad_cons, pad_cons, ← hspaces, List.append_assoc]
      cases n <;> rfl

/-- Moving twice is moving by both distances. -/
theorem indent_indent (h : Block t) (m n : Nat) :
    indent (indent t m) n = indent t (m + n) := by
  refine eq_of_splitOn_eq ?_
  rw [splitOn_indent (h.indent m), splitOn_indent h, splitOn_indent h, List.map_map]
  exact List.map_congr_left fun l _ => pad_pad n m l

/-! ## Nesting -/

/-- How a block is placed inside another one. -/
inductive Move where
  /-- Behind what begins its first line. -/
  | tail (spaces : Nat)
  /-- On lines of its own. -/
  | whole (spaces : Nat)
  deriving DecidableEq, Repr

/-- A block where a move brings it. -/
def Move.apply : Move → Text → Text
  | .tail n, t => indentTail t n
  | .whole n, t => indent t n

/-- A block where moves bring it one after the other, the innermost first. -/
def place (moves : List Move) (t : Text) : Text := moves.foldl (fun t move => move.apply t) t

theorem Move.block_apply (move : Move) (h : Block t) : Block (move.apply t) := by
  cases move with
  | tail n => exact h.indentTail n
  | whole n => exact h.indent n

/-- A move brings no two blocks to the same text. -/
theorem Move.apply_inj (move : Move) (hs : Block s) (ht : Block t)
    (h : move.apply s = move.apply t) : s = t := by
  cases move with
  | tail n =>
      have hback := congrArg (outdentTail? · n) h
      simpa [Move.apply, outdentTail?_indentTail hs, outdentTail?_indentTail ht] using hback
  | whole n =>
      have hback := congrArg (outdent? · n) h
      simpa [Move.apply, outdent?_indent hs, outdent?_indent ht] using hback

theorem place_inj (moves : List Move) (hs : Block s) (ht : Block t)
    (h : place moves s = place moves t) : s = t := by
  induction moves generalizing s t with
  | nil => exact h
  | cons move moves ih =>
      exact move.apply_inj hs ht (ih (move.block_apply hs) (move.block_apply ht) h)

/-- **Indentation is reversible and composes.** The spaces that a move puts in front of the lines of
a block are there and can be taken away, two moves are one move by both distances, and blocks that
differ still differ within any number of blocks. -/
theorem indentation_reversible (hs : Block s) :
    (∀ n, outdentTail? (indentTail s n) n = some s)
      ∧ (∀ m n, indentTail (indentTail s m) n = indentTail s (m + n))
      ∧ (∀ n, outdent? (indent s n) n = some s)
      ∧ (∀ m n, indent (indent s m) n = indent s (m + n))
      ∧ ∀ t, Block t → s ≠ t → ∀ moves, place moves s ≠ place moves t := by
  refine ⟨outdentTail?_indentTail hs, fun m n => ?_, outdent?_indent hs, indent_indent hs,
    fun t ht hne moves h => hne (place_inj moves hs ht h)⟩
  rw [indentTail_indentTail hs, Nat.add_comm]

/-- A block with an empty line and with a line of spaces. -/
def spacedBlock : Text := "Column(\n\n   \n  a,\n)".toList

/-- The same block without the line of spaces. -/
def closeBlock : Text := "Column(\n\n\n  a,\n)".toList

theorem indentation_reversible_spacedBlock :
    Block spacedBlock ∧ Block closeBlock ∧ spacedBlock ≠ closeBlock
      ∧ outdentTail? (indentTail spacedBlock 4) 4 = some spacedBlock
      ∧ indentTail (indentTail spacedBlock 1) 2 = indentTail spacedBlock 3
      ∧ outdent? (indent spacedBlock 4) 4 = some spacedBlock
      ∧ indent (indent spacedBlock 1) 2 = indent spacedBlock 3
      ∧ place [.tail 2, .whole 3, .tail 0] spacedBlock
        ≠ place [.tail 2, .whole 3, .tail 0] closeBlock := by
  have hspaced : Block spacedBlock := ⟨by decide, by decide⟩
  have hclose : Block closeBlock := ⟨by decide, by decide⟩
  have hne : spacedBlock ≠ closeBlock := by decide
  obtain ⟨htail, htails, hwhole, hwholes, hplace⟩ := indentation_reversible hspaced
  exact ⟨hspaced, hclose, hne, htail 4, htails 1 2, hwhole 4, hwholes 1 2,
    hplace closeBlock hclose hne [.tail 2, .whole 3, .tail 0]⟩

end CanvasFlutter.Dart.Layout
