import CanvasFlutter.Text

namespace CanvasFlutter.Text

/-!
# `CanvasFlutter.Proofs.Text.Lines` — trimming and cutting into lines

Every reader of routes files trims lines and looks at what is left. So all that is said here about
trimming is that white space at either end never matters, and all about lines is that a text is cut
after each line feed, whatever stands around it.

## Contents
- **Trimming.** `trim_blank_append`, `trim_append_blank`: white space at an end does not matter;
  `exists_eq_trim`: nothing else is taken away.
- **Trimmed texts.** `Trimmed`, with `trimmed_enclosed`.
- **Pieces.** `pieces_line_append` is the one equation; `pieces_flatten_of_eq_append` cuts the end
  of a text again.
-/

/-- What is checked of every entry holds of every entry, in whatever way it is decided. -/
theorem forall_of_all {α : Type} {p : α → Prop} [DecidablePred p] {l : List α}
    (h : l.all (fun a => decide (p a)) = true) : ∀ a ∈ l, p a := by
  simpa using h

/-- The bytes of a text are read as that text. -/
theorem fromUTF8?_toUTF8 (text : String) : String.fromUTF8? text.toUTF8 = some text := by
  have hvalid : text.toUTF8.IsValidUTF8 := text.isValidUTF8
  rw [String.fromUTF8?, dif_pos hvalid]
  rfl

/-! ## Trimming -/

@[simp] theorem isBlank_nil : isBlank [] = true := rfl

@[simp] theorem isBlank_cons (c : Char) (t : Text) :
    isBlank (c :: t) = (isWhite c && isBlank t) := rfl

@[simp] theorem isBlank_append (s t : Text) : isBlank (s ++ t) = (isBlank s && isBlank t) := by
  simp [isBlank]

@[simp] theorem isBlank_reverse (t : Text) : isBlank t.reverse = isBlank t := by
  simp [isBlank]

theorem trimEnd_eq_reverse (t : Text) : trimEnd t = (trimStart t.reverse).reverse := rfl

theorem trimStart_blank_append {a : Text} (h : isBlank a = true) (t : Text) :
    trimStart (a ++ t) = trimStart t :=
  List.dropWhile_append_of_pos (by simpa [isBlank] using h)

theorem trimEnd_append_blank {b : Text} (h : isBlank b = true) (t : Text) :
    trimEnd (t ++ b) = trimEnd t := by
  rw [trimEnd_eq_reverse, List.reverse_append, trimStart_blank_append (by simpa using h),
    ← trimEnd_eq_reverse]

/-- A visible character keeps what follows it from being trimmed in front. -/
theorem trimStart_append_visible (s : Text) {c : Char} (hc : isWhite c = false) (t : Text) :
    trimStart (s ++ c :: t) = trimStart s ++ c :: t := by
  induction s with
  | nil => simp [trimStart, hc]
  | cons d s ih =>
      by_cases hd : isWhite d = true
      · simpa [trimStart, hd] using ih
      · simp [trimStart, hd]

/-- A visible character keeps what stands before it from being trimmed at the end. -/
theorem trimEnd_append_visible (s : Text) {c : Char} (hc : isWhite c = false) (t : Text) :
    trimEnd (s ++ c :: t) = s ++ c :: trimEnd t := by
  have h := trimStart_append_visible t.reverse hc s.reverse
  simp [trimEnd_eq_reverse, h]

theorem isBlank_iff_trimStart (t : Text) : isBlank t = true ↔ trimStart t = [] :=
  (trimStart_eq_nil_iff t).symm

/-- A text is blank, or it has a first visible character. -/
theorem isBlank_or_exists_visible (t : Text) :
    isBlank t = true ∨
      ∃ a c b, isBlank a = true ∧ isWhite c = false ∧ t = a ++ c :: b := by
  induction t with
  | nil => exact .inl rfl
  | cons d t ih =>
      by_cases hd : isWhite d = true
      · rcases ih with h | ⟨a, c, b, ha, hc, rfl⟩
        · exact .inl (by simp [hd, h])
        · exact .inr ⟨d :: a, c, b, by simp [hd, ha], hc, rfl⟩
      · exact .inr ⟨[], d, t, rfl, by simpa using hd, rfl⟩

theorem trim_of_isBlank {t : Text} (h : isBlank t = true) : trim t = [] := by
  rw [trim, (isBlank_iff_trimStart t).mp h]
  rfl

theorem trim_blank_append {a : Text} (h : isBlank a = true) (t : Text) :
    trim (a ++ t) = trim t := by
  rw [trim, trimStart_blank_append h, ← trim]

theorem trim_append_blank {b : Text} (h : isBlank b = true) (t : Text) :
    trim (t ++ b) = trim t := by
  rcases isBlank_or_exists_visible t with ht | ⟨a, c, s, ha, hc, rfl⟩
  · rw [trim_of_isBlank ht, trim_of_isBlank (by simp [ht, h])]
  · have hstart : trimStart (a ++ c :: s ++ b) = trimStart (a ++ c :: s) ++ b := by
      rw [List.append_assoc, List.cons_append, trimStart_append_visible a hc,
        trimStart_append_visible a hc, List.append_assoc, List.cons_append]
    rw [trim, hstart, trimEnd_append_blank h, ← trim]

/-- Between visible ends nothing is trimmed. -/
theorem trim_append_visible (s : Text) {c : Char} (hc : isWhite c = false) (t : Text) :
    trim (s ++ c :: t) = trimStart s ++ c :: trimEnd t := by
  rw [trim, trimStart_append_visible s hc, trimEnd_append_visible _ hc]

/-- Only white space is trimmed. -/
theorem exists_eq_trim (t : Text) :
    ∃ a b, isBlank a = true ∧ isBlank b = true ∧ t = a ++ trim t ++ b := by
  have hstart : ∀ s : Text, ∃ a, isBlank a = true ∧ s = a ++ trimStart s := fun s =>
    ⟨s.takeWhile isWhite, by simp [isBlank], (List.takeWhile_append_dropWhile).symm⟩
  obtain ⟨a, ha, hs⟩ := hstart t
  obtain ⟨b, hb, hr⟩ := hstart (trimStart t).reverse
  have he : trimStart t = trim t ++ b.reverse := by
    have := congrArg List.reverse hr
    simpa [trim, trimEnd_eq_reverse] using this
  exact ⟨a, b.reverse, ha, by simpa using hb, by rw [List.append_assoc, ← he]; exact hs⟩

theorem trim_trim (t : Text) : trim (trim t) = trim t := by
  obtain ⟨a, b, ha, hb, h⟩ := exists_eq_trim t
  conv => rhs; rw [h]
  rw [trim_append_blank hb, trim_blank_append ha]

theorem mem_of_mem_trim {c : Char} {t : Text} (h : c ∈ trim t) : c ∈ t := by
  obtain ⟨a, b, -, -, ht⟩ := exists_eq_trim t
  rw [ht]
  simp [h]

theorem trim_eq_nil_iff (t : Text) : trim t = [] ↔ isBlank t = true := by
  refine ⟨fun h => ?_, trim_of_isBlank⟩
  obtain ⟨a, b, ha, hb, ht⟩ := exists_eq_trim t
  rw [ht, h]
  simp [ha, hb]

/-! ## Trimmed texts -/

/-- A text without white space at its ends. -/
def Trimmed (t : Text) : Prop := trim t = t

instance (t : Text) : Decidable (Trimmed t) := inferInstanceAs (Decidable (trim t = t))

theorem Trimmed.eq {t : Text} (h : Trimmed t) : trim t = t := h

/-- A text that begins and ends with visible characters is trimmed. -/
theorem trimmed_enclosed {a b : Text} (ha : ∃ c ∈ a.head?, isWhite c = false)
    (hb : ∃ c ∈ b.getLast?, isWhite c = false) (t : Text) : Trimmed (a ++ (t ++ b)) := by
  obtain ⟨c, hc, hcv⟩ := ha
  obtain ⟨d, hd, hdv⟩ := hb
  obtain ⟨s, rfl⟩ := List.head?_eq_some_iff.mp hc
  obtain ⟨r, rfl⟩ := List.getLast?_eq_some_iff.mp hd
  have hstart : trimStart (c :: s ++ (t ++ (r ++ [d]))) = c :: s ++ (t ++ (r ++ [d])) :=
    trimStart_append_visible [] hcv _
  rw [Trimmed, trim, hstart, ← List.append_assoc, ← List.append_assoc]
  exact trimEnd_append_visible _ hdv []

/-- The last of two lists is the last of the second one. -/
theorem getLast?_append_right {α : Type} (a : List α) {b : List α} (h : b ≠ []) :
    (a ++ b).getLast? = b.getLast? := by
  obtain ⟨last, hlast⟩ := Option.ne_none_iff_exists'.mp (mt List.getLast?_eq_none_iff.mp h)
  rw [List.getLast?_append, hlast, Option.some_or]

theorem endsWith_append (c : Char) (s : Text) {t : Text} (h : t ≠ []) :
    endsWith c (s ++ t) = endsWith c t := by
  rw [endsWith, endsWith, getLast?_append_right s h]

/-! ## Pieces -/

/-- A line and its end are a piece, whatever follows. -/
theorem pieces_line_append {l : Text} (h : '\n' ∉ l) (t : Text) :
    pieces (l ++ '\n' :: t) = (l ++ ['\n']) :: pieces t := by
  induction l with
  | nil => simp [pieces]
  | cons c l ih =>
      simp only [List.mem_cons, not_or] at h
      rw [List.cons_append, pieces, if_neg (Ne.symm h.1), ih h.2]
      rfl

/-- A text without a line feed is a piece. -/
theorem pieces_of_not_mem {l : Text} (h : '\n' ∉ l) (hne : l ≠ []) : pieces l = [l] := by
  induction l with
  | nil => exact absurd rfl hne
  | cons c l ih =>
      simp only [List.mem_cons, not_or] at h
      rw [pieces, if_neg (Ne.symm h.1)]
      cases l with
      | nil => simp [pieces]
      | cons d l => rw [ih h.2 (by simp)]

/-- A character that is no line feed is in a piece with what follows. -/
theorem exists_pieces_cons {c : Char} (hc : c ≠ '\n') (t : Text) :
    ∃ p ps, pieces (c :: t) = (c :: p) :: ps := by
  rw [pieces, if_neg hc]
  cases pieces t with
  | nil => exact ⟨[], [], rfl⟩
  | cons p ps => exact ⟨p, ps, rfl⟩

/-- What stands in front of a piece without a line feed between belongs to the piece. -/
theorem pieces_append_of_not_mem {l t p : Text} {ps : List Text} (h : '\n' ∉ l)
    (ht : pieces t = p :: ps) : pieces (l ++ t) = (l ++ p) :: ps := by
  induction l with
  | nil => exact ht
  | cons c l ih =>
      simp only [List.mem_cons, not_or] at h
      rw [List.cons_append, pieces, if_neg (Ne.symm h.1), ih h.2]
      rfl

/-- A text is a line without an end, or a line with its end and a text after that. -/
@[elab_as_elim]
theorem lineInduction {motive : Text → Prop} (last : ∀ l, '\n' ∉ l → motive l)
    (line : ∀ l t, '\n' ∉ l → motive t → motive (l ++ '\n' :: t)) (t : Text) : motive t := by
  by_cases h : '\n' ∈ t
  · obtain ⟨l, s, rfl, hl⟩ := List.eq_append_cons_of_mem h
    have : s.length < (l ++ '\n' :: s).length := by simp; omega
    exact line l s hl (lineInduction last line s)
  · exact last t h
termination_by t.length

/-- No line feed is left in a trimmed piece. -/
theorem newline_not_mem_trim {p t : Text} (h : p ∈ pieces t) : '\n' ∉ trim p := by
  induction t using lineInduction with
  | last l hl =>
      by_cases hne : l = []
      · subst hne; simp [pieces] at h
      · rw [pieces_of_not_mem hl hne, List.mem_singleton] at h
        exact fun hm => hl (h ▸ mem_of_mem_trim hm)
  | line l t hl ih =>
      rw [pieces_line_append hl, List.mem_cons] at h
      rcases h with rfl | h
      · rw [trim_append_blank (by decide)]
        exact fun hm => hl (mem_of_mem_trim hm)
      · exact ih h

/-- The pieces after the first are those of a text of their own. -/
theorem exists_pieces_tail {p : Text} {ps : List Text} {t : Text} (h : pieces t = p :: ps) :
    ∃ s, t = p ++ s ∧ pieces s = ps := by
  induction t using lineInduction with
  | last l hl =>
      by_cases hne : l = []
      · subst hne; simp [pieces] at h
      · rw [pieces_of_not_mem hl hne] at h
        obtain ⟨rfl, rfl⟩ := List.cons.inj h
        exact ⟨[], by simp, rfl⟩
  | line l t hl =>
      rw [pieces_line_append hl] at h
      obtain ⟨rfl, rfl⟩ := List.cons.inj h
      exact ⟨t, by simp, rfl⟩

/-- The last pieces of a text, put together, are cut into the same pieces. -/
theorem pieces_flatten_of_eq_append {a b : List Text} {t : Text} (h : pieces t = a ++ b) :
    pieces b.flatten = b := by
  induction a generalizing t with
  | nil => rw [← show pieces t = b from h, flatten_pieces]
  | cons p a ih =>
      obtain ⟨s, -, hs⟩ := exists_pieces_tail h
      exact ih hs

/-- Some of the pieces of a text, put together, are cut into the same pieces. -/
theorem pieces_flatten_of_sublist {kept : List Text} {t : Text} (h : kept.Sublist (pieces t)) :
    pieces kept.flatten = kept := by
  induction t using lineInduction generalizing kept with
  | last l hl =>
      by_cases hne : l = []
      · subst hne
        obtain rfl := List.sublist_nil.mp h
        rfl
      · rw [pieces_of_not_mem hl hne] at h
        rcases List.sublist_cons_iff.mp h with hnil | ⟨rest, rfl, hnil⟩
        · obtain rfl := List.sublist_nil.mp hnil
          rfl
        · obtain rfl := List.sublist_nil.mp hnil
          rw [List.flatten_singleton, pieces_of_not_mem hl hne]
  | line l t hl ih =>
      rw [pieces_line_append hl] at h
      rcases List.sublist_cons_iff.mp h with h | ⟨rest, rfl, hrest⟩
      · exact ih h
      · rw [List.flatten_cons, List.append_assoc, List.singleton_append, pieces_line_append hl,
          ih hrest]

/-- A text is some whole lines and a line without an end. -/
theorem exists_lastLine (t : Text) :
    ∃ q l, t = q ++ l ∧ '\n' ∉ l ∧ ∀ s, pieces (q ++ s) = pieces q ++ pieces s := by
  induction t using lineInduction with
  | last l hl => exact ⟨[], l, rfl, hl, fun _ => rfl⟩
  | line l t hl ih =>
      obtain ⟨q, m, rfl, hm, hq⟩ := ih
      refine ⟨l ++ '\n' :: q, m, by simp, hm, fun s => ?_⟩
      rw [List.append_assoc, List.cons_append, pieces_line_append hl, hq, pieces_line_append hl]
      rfl

/-- Of the pieces of a text only the first is changed by what stands in front. -/
theorem exists_pieces_append (s : Text) {t p : Text} {ps : List Text} (h : pieces t = p :: ps) :
    ∃ a m, pieces (s ++ t) = a ++ (m ++ p) :: ps := by
  obtain ⟨q, m, rfl, hm, hq⟩ := exists_lastLine s
  exact ⟨pieces q, m, by rw [List.append_assoc, hq, pieces_append_of_not_mem hm h]⟩

end CanvasFlutter.Text
