import CanvasFlutter.Proofs.Text.Lines

namespace CanvasFlutter.Text

/-!
# `CanvasFlutter.Proofs.Text.Visible` — the lines that are seen

Two texts look alike if their lines, trimmed and without the blank ones, are the same. A visible
character has the same place in both, so what looks alike can be cut at it, and what is cut at
visible characters can be put together again.

## Contents
- **Visible lines.** `visibleLines`; `visibleLines_newline` is the one equation.
- **Cutting.** `exists_visible_cut`: where one text is cut at a visible character, so is the other.
- **Joining.** `visibleLines_join`: what the lines of two texts say of the lines of both together.
-/

/-! ## Visible lines -/

/-- Lines trimmed, without the blank ones. -/
def visible (lines : List Text) : List Text := (lines.map trim).filter fun line => !line.isEmpty

/-- The lines of a text trimmed, without the blank ones. -/
def visibleLines (t : Text) : List Text := visible (pieces t)

@[simp] theorem visible_append (a b : List Text) : visible (a ++ b) = visible a ++ visible b := by
  simp [visible]

theorem visible_singleton (line : Text) :
    visible [line] = if isBlank line then [] else [trim line] := by
  by_cases h : isBlank line = true
  · simp [visible, h, trim_of_isBlank h]
  · have hne : trim line ≠ [] := mt (trim_eq_nil_iff line).mp h
    simp [visible, h, hne]

theorem visible_cons (line : Text) (lines : List Text) :
    visible (line :: lines) = visible [line] ++ visible lines := visible_append [line] lines

theorem visible_dropWhile_isBlank (lines : List Text) :
    visible (lines.dropWhile isBlank) = visible lines := by
  induction lines with
  | nil => rfl
  | cons line lines ih =>
      by_cases hb : isBlank line = true
      · rw [List.dropWhile_cons_of_pos hb, ih, visible_cons, visible_singleton, if_pos hb]
        rfl
      · rw [List.dropWhile_cons_of_neg hb]

@[simp] theorem visibleLines_nil : visibleLines [] = [] := rfl

theorem visibleLines_line {l : Text} (h : '\n' ∉ l) :
    visibleLines l = if isBlank l then [] else [trim l] := by
  by_cases hne : l = []
  · simp [hne]
  · rw [visibleLines, pieces_of_not_mem h hne, visible_singleton]

theorem visibleLines_line_newline {l : Text} (hl : '\n' ∉ l) (t : Text) :
    visibleLines (l ++ '\n' :: t) = visibleLines l ++ visibleLines t := by
  have hend : visible [l ++ ['\n']] = visibleLines l := by
    rw [visibleLines_line hl, visible_singleton, trim_append_blank (by decide), isBlank_append,
      show isBlank ['\n'] = true from rfl, Bool.and_true]
  rw [visibleLines, pieces_line_append hl, visible_cons, hend, ← visibleLines]

/-- A line feed cuts the visible lines. -/
theorem visibleLines_newline (s t : Text) :
    visibleLines (s ++ '\n' :: t) = visibleLines s ++ visibleLines t := by
  induction s using lineInduction with
  | last l hl => exact visibleLines_line_newline hl t
  | line l s hl ih =>
      rw [List.append_assoc, List.cons_append, visibleLines_line_newline hl,
        visibleLines_line_newline hl, ih, List.append_assoc]

theorem visibleLines_cons_newline (t : Text) : visibleLines ('\n' :: t) = visibleLines t :=
  visibleLines_newline [] t

/-- White space in front of a text is not seen. -/
theorem visibleLines_blank_append {a : Text} (h : isBlank a = true) (t : Text) :
    visibleLines (a ++ t) = visibleLines t := by
  induction a with
  | nil => rfl
  | cons c a ih =>
      rw [isBlank_cons, Bool.and_eq_true] at h
      by_cases hc : c = '\n'
      · rw [hc, List.cons_append, visibleLines_cons_newline, ih h.2]
      · rw [List.cons_append, ← ih h.2]
        have hblank : isBlank [c] = true := by simp [h.1]
        -- The character joins the first piece of what follows, where it is trimmed away.
        cases ht : a ++ t with
        | nil => rw [visibleLines_line (by simpa using Ne.symm hc), if_pos hblank, visibleLines_nil]
        | cons d t =>
            obtain ⟨p, ps, hp⟩ := List.exists_cons_of_ne_nil (pieces_ne_nil (c := d) (t := t))
            have hp' := pieces_append_of_not_mem (l := [c]) (by simpa using Ne.symm hc) hp
            rw [List.singleton_append, List.singleton_append] at hp'
            rw [visibleLines, visibleLines, hp, hp', visible_cons, visible_cons p,
              visible_singleton, visible_singleton, ← List.singleton_append,
              trim_blank_append hblank, isBlank_append, hblank, Bool.true_and]

/-- Nothing, or a text that begins a new line. -/
def EndsLine (t : Text) : Prop := t = [] ∨ ∃ s, t = '\n' :: s

/-- A line and what follows it. -/
theorem visibleLines_line_append {l t : Text} (hl : '\n' ∉ l) (ht : EndsLine t) :
    visibleLines (l ++ t) = (if isBlank l then [] else [trim l]) ++ visibleLines t := by
  rcases ht with rfl | ⟨s, rfl⟩
  · rw [List.append_nil, visibleLines_line hl, visibleLines_nil, List.append_nil]
  · rw [visibleLines_newline, visibleLines_line hl, visibleLines_cons_newline]

/-- A text is a line and what follows it. -/
theorem exists_line (t : Text) : ∃ l s, t = l ++ s ∧ '\n' ∉ l ∧ EndsLine s := by
  by_cases h : '\n' ∈ t
  · obtain ⟨l, s, rfl, hl⟩ := List.eq_append_cons_of_mem h
    exact ⟨l, '\n' :: s, rfl, hl, .inr ⟨s, rfl⟩⟩
  · exact ⟨t, [], by simp, h, .inl rfl⟩

/-! ## Cutting -/

/-- A visible character stands after white space, not in it. -/
theorem exists_eq_blank_append {a t u v : Text} {c : Char} (ha : isBlank a = true)
    (hc : isWhite c = false) (h : a ++ t = u ++ c :: v) : ∃ w, u = a ++ w ∧ t = w ++ c :: v := by
  rcases List.append_eq_append_iff.mp h with ⟨w, rfl, rfl⟩ | ⟨w, rfl, hw⟩
  · exact ⟨w, rfl, rfl⟩
  · cases w with
    | nil => exact ⟨[], by simp, by simpa using hw.symm⟩
    | cons d w =>
        obtain ⟨rfl, -⟩ := List.cons.inj hw
        simp [hc] at ha

/-- A text that is seen is white space, its first visible line and what follows that. -/
theorem exists_first_line {t w : Text} {ws : List Text} (h : visibleLines t = w :: ws) :
    ∃ a b s, t = a ++ (w ++ (b ++ s)) ∧ isBlank a = true ∧ isBlank b = true ∧ '\n' ∉ w ++ b ∧
      EndsLine s ∧ visibleLines s = ws := by
  induction t using lineInduction generalizing w ws with
  | last l hl =>
      rw [visibleLines_line hl] at h
      split at h
      · exact absurd h (by simp)
      · obtain ⟨rfl, rfl⟩ := List.cons.inj h
        obtain ⟨a, b, ha, hb, hlb⟩ := exists_eq_trim l
        refine ⟨a, b, [], by simpa using hlb, ha, hb, fun hm => hl ?_, .inl rfl, rfl⟩
        rw [hlb, List.append_assoc]
        exact List.mem_append_right a hm
  | line l t hl ih =>
      rw [visibleLines_newline, visibleLines_line hl] at h
      split at h
      · next hb =>
          obtain ⟨a, b, s, rfl, ha, hb', hn, hs, hws⟩ := ih h
          -- A blank line is part of the white space in front of the line that is seen.
          exact ⟨l ++ '\n' :: a, b, s, by simp, by simp [hb, ha, show isWhite '\n' = true from rfl],
            hb', hn, hs, hws⟩
      · obtain ⟨rfl, rfl⟩ := List.cons.inj h
        obtain ⟨a, b, ha, hb, hlb⟩ := exists_eq_trim l
        refine ⟨a, b, '\n' :: t, ?_, ha, hb, fun hm => hl ?_, .inr ⟨t, rfl⟩,
          visibleLines_cons_newline t⟩
        · conv => lhs; rw [hlb]
          simp
        · rw [hlb, List.append_assoc]
          exact List.mem_append_right a hm

/-- Two cuts of texts that look alike. -/
structure SameCut (c : Char) (u v u' v' : Text) : Prop where
  before : visibleLines u' = visibleLines u
  upTo : visibleLines (u' ++ [c]) = visibleLines (u ++ [c])
  since : visibleLines (c :: v') = visibleLines (c :: v)
  after : visibleLines v' = visibleLines v

/-- White space around a line is not seen. -/
theorem visibleLines_first_line {a w b s : Text} (ha : isBlank a = true) (hb : isBlank b = true)
    (hn : '\n' ∉ w ++ b) (hs : EndsLine s) :
    visibleLines (a ++ (w ++ (b ++ s))) = visibleLines w ++ visibleLines s := by
  have hw : '\n' ∉ w := fun hm => hn (List.mem_append_left b hm)
  rw [visibleLines_blank_append ha, ← List.append_assoc, visibleLines_line_append hn hs,
    trim_append_blank hb, isBlank_append, hb, Bool.and_true, visibleLines_line hw]

theorem EndsLine.exists_newline {u v : Text} {c : Char} (hc : isWhite c = false)
    (h : EndsLine (u ++ c :: v)) : ∃ s, u = '\n' :: s := by
  rcases h with h | ⟨s, h⟩
  · exact absurd h (by simp)
  · cases u with
    | nil =>
        obtain ⟨rfl, -⟩ := List.cons.inj h
        exact absurd hc (by decide)
    | cons d u =>
        obtain ⟨rfl, -⟩ := List.cons.inj h
        exact ⟨u, rfl⟩

theorem isBlank_of_visibleLines {t : Text} (h : visibleLines t = []) : isBlank t = true := by
  induction t using lineInduction with
  | last l hl =>
      rw [visibleLines_line hl] at h
      split at h
      · assumption
      · exact absurd h (by simp)
  | line l t hl ih =>
      rw [visibleLines_newline, List.append_eq_nil_iff, visibleLines_line hl] at h
      obtain ⟨hline, hrest⟩ := h
      split at hline
      · next hb => simp [hb, ih hrest, show isWhite '\n' = true from rfl]
      · exact absurd hline (by simp)

section

variable {c : Char} {a b s a' b' s' w : Text}

/-- Texts that begin with the same line, and are cut alike after it. -/
theorem SameCut.afterLine (ha : isBlank a = true) (hb : isBlank b = true) (hn : '\n' ∉ w ++ b)
    (ha' : isBlank a' = true) (hb' : isBlank b' = true) (hn' : '\n' ∉ w ++ b') {u v u' v' : Text}
    (h : SameCut c ('\n' :: u) v ('\n' :: u') v') :
    SameCut c (a ++ (w ++ (b ++ '\n' :: u))) v (a' ++ (w ++ (b' ++ '\n' :: u'))) v' where
  before := by
    rw [visibleLines_first_line ha hb hn (.inr ⟨_, rfl⟩),
      visibleLines_first_line ha' hb' hn' (.inr ⟨_, rfl⟩), h.before]
  upTo := by
    simp only [List.append_assoc, List.cons_append]
    rw [visibleLines_first_line ha hb hn (.inr ⟨_, rfl⟩),
      visibleLines_first_line ha' hb' hn' (.inr ⟨_, rfl⟩)]
    exact congrArg _ h.upTo
  since := h.since
  after := h.after

/-- Texts that begin with the same line, cut at a character of it. -/
theorem SameCut.inLine {m n : Text} (ha : isBlank a = true) (hb : isBlank b = true)
    (hn : '\n' ∉ m ++ c :: n ++ b) (hs : EndsLine s) (ha' : isBlank a' = true)
    (hb' : isBlank b' = true) (hn' : '\n' ∉ m ++ c :: n ++ b') (hs' : EndsLine s')
    (h : visibleLines s' = visibleLines s) :
    SameCut c (a ++ m) (n ++ (b ++ s)) (a' ++ m) (n ++ (b' ++ s')) := by
  -- What follows the cut is a line, white space and the same visible lines.
  have rest : ∀ k : Text, (∀ b : Text, '\n' ∉ m ++ c :: n ++ b → '\n' ∉ k ++ b) →
      visibleLines (k ++ (b' ++ s')) = visibleLines (k ++ (b ++ s)) := by
    intro k hk
    have h₁ := visibleLines_first_line (a := []) rfl hb (hk b hn) hs
    have h₂ := visibleLines_first_line (a := []) rfl hb' (hk b' hn') hs'
    rw [List.nil_append] at h₁ h₂
    rw [h₁, h₂, h]
  refine ⟨?_, ?_, rest (c :: n) ?_, rest n ?_⟩
  · rw [visibleLines_blank_append ha, visibleLines_blank_append ha']
  · rw [List.append_assoc, List.append_assoc, visibleLines_blank_append ha,
      visibleLines_blank_append ha']
  · intro b hb
    simp only [List.append_assoc, List.mem_append, List.mem_cons, not_or] at hb ⊢
    exact hb.2
  · intro b hb
    simp only [List.append_assoc, List.mem_append, List.mem_cons, List.cons_append, not_or] at hb ⊢
    exact hb.2.2

end

/-- **Cutting.** Where one text is cut at a visible character, a text that looks like it is cut. -/
theorem exists_visible_cut {c : Char} (hc : isWhite c = false) {x u v : Text}
    (h : visibleLines x = visibleLines (u ++ c :: v)) :
    ∃ u' v', x = u' ++ c :: v' ∧ SameCut c u v u' v' := by
  -- The induction is on the visible lines: both texts begin with the same one.
  obtain ⟨ws, hws⟩ : ∃ ws, visibleLines x = ws := ⟨_, rfl⟩
  induction ws generalizing x u with
  | nil =>
      have hblank := isBlank_of_visibleLines (h.symm.trans hws)
      simp [hc] at hblank
  | cons w ws ih =>
      obtain ⟨a', b', s', rfl, ha', hb', hn', hs', hrest'⟩ := exists_first_line hws
      obtain ⟨a, b, s, heq, ha, hb, hn, hs, hrest⟩ := exists_first_line (h.symm.trans hws)
      obtain ⟨m, rfl, hm⟩ := exists_eq_blank_append ha hc heq.symm
      rcases List.append_eq_append_iff.mp hm with ⟨k, rfl, hk⟩ | ⟨k, rfl, hk⟩
      · -- The character stands after the first visible line.
        obtain ⟨k, rfl, rfl⟩ := exists_eq_blank_append hb hc hk
        obtain ⟨u', v', rfl, hsame⟩ := ih (hrest'.trans hrest.symm) hrest'
        obtain ⟨u', rfl⟩ := hs'.exists_newline hc
        obtain ⟨k, rfl⟩ := hs.exists_newline hc
        exact ⟨a' ++ (w ++ (b' ++ '\n' :: u')), v', by simp,
          hsame.afterLine ha hb hn ha' hb' hn'⟩
      · -- The character stands in the first visible line.
        cases k with
        | nil =>
            -- What follows the line is white space and a line feed, so it is not the character.
            obtain ⟨n, hn₀, rfl⟩ := exists_eq_blank_append (u := []) hb hc hk.symm
            obtain ⟨-, rfl⟩ := List.append_eq_nil_iff.mp hn₀.symm
            obtain ⟨t, ht⟩ := hs.exists_newline (u := []) hc
            exact absurd ht (by simp)
        | cons d n =>
            simp only [List.cons_append, List.cons.injEq] at hk
            obtain ⟨rfl, rfl⟩ := hk
            exact ⟨a' ++ m, n ++ (b' ++ s'), by simp,
              .inLine ha hb hn hs ha' hb' hn' hs' (hrest'.trans hrest.symm)⟩

/-! ## Joining -/

/-- Visible ends of two texts join into one line. -/
theorem visibleLines_join {c d : Char} (hc : isWhite c = false) (hd : isWhite d = false)
    (u v : Text) : ∃ lines l m more, visibleLines (u ++ [c]) = lines ++ [l] ∧
      visibleLines (d :: v) = m :: more ∧
      visibleLines (u ++ c :: d :: v) = lines ++ (l ++ m) :: more := by
  obtain ⟨q, l, rfl, hl, hq⟩ := exists_lastLine u
  obtain ⟨m, s, rfl, hm, hs⟩ := exists_line v
  have hsplit : ∀ t, visibleLines (q ++ t) = visibleLines q ++ visibleLines t := fun t => by
    rw [visibleLines, hq, visible_append, ← visibleLines, ← visibleLines]
  have hnewline : ∀ {e : Char}, isWhite e = false → '\n' ≠ e := by
    rintro e he rfl
    exact absurd he (by decide)
  -- The joined line is trimmed in front like the first half and at the end like the second.
  have hupTo : visibleLines (l ++ [c]) = [trimStart l ++ [c]] := by
    have hblank : isBlank (l ++ [c]) = false := by simp [hc]
    rw [visibleLines_line (by simp [hl, hnewline hc]), hblank, trim_append_visible l hc]
    rfl
  have hsince : visibleLines (d :: m ++ s) = (d :: trimEnd m) :: visibleLines s := by
    have hblank : isBlank (d :: m) = false := by simp [hd]
    have htrim : trim (d :: m) = d :: trimEnd m := trim_append_visible [] hd m
    rw [visibleLines_line_append (by simp [hm, hnewline hd]) hs, hblank, htrim]
    rfl
  have hboth : visibleLines (l ++ c :: d :: m ++ s)
      = (trimStart l ++ [c] ++ d :: trimEnd m) :: visibleLines s := by
    have hblank : isBlank (l ++ c :: d :: m) = false := by simp [hc]
    have htrim : trimEnd (d :: m) = d :: trimEnd m := trimEnd_append_visible [] hd m
    rw [visibleLines_line_append (by simp [hl, hm, hnewline hc, hnewline hd]) hs, hblank,
      trim_append_visible l hc, htrim]
    simp
  refine ⟨visibleLines q, trimStart l ++ [c], d :: trimEnd m, visibleLines s, ?_, hsince, ?_⟩
  · rw [List.append_assoc, hsplit, hupTo]
  · rw [List.append_assoc, hsplit, ← hboth]
    simp

/-- What looks alike up to a visible character and from another one on looks alike. -/
theorem visibleLines_congr_join {c d : Char} (hc : isWhite c = false) (hd : isWhite d = false)
    {u u' v v' : Text} (hu : visibleLines (u' ++ [c]) = visibleLines (u ++ [c]))
    (hv : visibleLines (d :: v') = visibleLines (d :: v)) :
    visibleLines (u' ++ c :: d :: v') = visibleLines (u ++ c :: d :: v) := by
  obtain ⟨lines, l, m, more, h₁, h₂, h⟩ := visibleLines_join hc hd u v
  obtain ⟨lines', l', m', more', h₁', h₂', h'⟩ := visibleLines_join hc hd u' v'
  obtain ⟨rfl, hl⟩ := List.append_inj' (h₁'.symm.trans (hu.trans h₁)) rfl
  obtain ⟨rfl, rfl⟩ := List.cons.inj (h₂'.symm.trans (hv.trans h₂))
  obtain rfl := List.singleton_inj.mp hl
  rw [h, h']

end CanvasFlutter.Text
