import Mathlib.Data.List.Forall2
import CanvasFlutter.Proofs.Route.Legal
import CanvasFlutter.Proofs.Text.Lines

namespace CanvasFlutter.Text

/-!
# `CanvasFlutter.Proofs.Text.Letters` — names that are the same up to case and white space

Trimming before a comparison without case comes to the same as leaving out white space at the ends
of either text and the case of ASCII letters: no letter is white space, whatever its case.

## Contents
- **Letters.** `SameLetter`; `toLower_eq_toLower_iff`.
- **Names.** `Surrounds`, `SameName`; `equalsIgnoringCase_trim_iff`.
-/

/-! ## Letters -/

/-- Two characters that are one, or the same ASCII letter in either case. -/
def SameLetter (c d : Char) : Prop :=
  c = d ∨ c.isAlpha = true ∧ d.isAlpha = true ∧ c.toLower = d.toLower

instance (c d : Char) : Decidable (SameLetter c d) :=
  inferInstanceAs (Decidable (_ ∨ _ ∧ _ ∧ _))

/-- A capital and its small form are letters. -/
theorem isAlpha_toLower {c : Char} (h : c.isUpper = true) :
    c.isAlpha = true ∧ c.toLower.isAlpha = true :=
  forall_isAsciiWord (p := fun c => c.isUpper = true → c.isAlpha = true ∧ c.toLower.isAlpha = true)
    (by decide) (isAsciiWord_of_isAlphanum (PageName.isAlphanum_of_isUpper h)) h

/-- What has the small form of a capital is a letter. -/
theorem isAlpha_of_toLower_eq {c d : Char} (h : c.toLower = d.toLower) (hc : c.isUpper = true) :
    d.isAlpha = true := by
  by_cases hd : d.isUpper = true
  · exact (isAlpha_toLower hd).1
  · have hsmall : c.toLower = d := h.trans (PageName.toLower_of_not_isUpper (by simpa using hd))
    exact hsmall ▸ (isAlpha_toLower hc).2

theorem toLower_eq_toLower_iff {c d : Char} : c.toLower = d.toLower ↔ SameLetter c d := by
  constructor
  · intro h
    by_cases hc : c.isUpper = true
    · exact .inr ⟨(isAlpha_toLower hc).1, isAlpha_of_toLower_eq h hc, h⟩
    · by_cases hd : d.isUpper = true
      · exact .inr ⟨isAlpha_of_toLower_eq h.symm hd, (isAlpha_toLower hd).1, h⟩
      · left
        rwa [PageName.toLower_of_not_isUpper (by simpa using hc),
          PageName.toLower_of_not_isUpper (by simpa using hd)] at h
  · rintro (rfl | ⟨-, -, h⟩)
    · rfl
    · exact h

theorem lower_eq_lower_iff {s t : Text} : lower s = lower t ↔ List.Forall₂ SameLetter s t := by
  rw [lower, lower, ← List.forall₂_eq_eq_eq, List.forall₂_map_left_iff, List.forall₂_map_right_iff]
  simp only [toLower_eq_toLower_iff]

/-! ## Names -/

/-- A text is this one with white space around it. -/
def Surrounds (core t : Text) : Prop :=
  ∃ before after, isBlank before = true ∧ isBlank after = true ∧ t = before ++ core ++ after

/-- Two texts that are the same up to white space at their ends and the case of ASCII letters. -/
def SameName (s t : Text) : Prop :=
  ∃ core other, Surrounds core s ∧ Surrounds other t ∧ List.Forall₂ SameLetter core other

theorem surrounds_trim (t : Text) : Surrounds (trim t) t := exists_eq_trim t

theorem Surrounds.trim_eq {core t : Text} (h : Surrounds core t) : trim t = trim core := by
  obtain ⟨before, after, hbefore, hafter, rfl⟩ := h
  rw [trim_append_blank hafter, trim_blank_append hbefore]

theorem isWhite_toLower (c : Char) : isWhite c.toLower = isWhite c := by
  by_cases hc : c.isUpper = true
  · exact forall_isAsciiWord (p := fun c => isWhite c.toLower = isWhite c) (by decide)
      (isAsciiWord_of_isAlphanum (PageName.isAlphanum_of_isUpper hc))
  · rw [PageName.toLower_of_not_isUpper (by simpa using hc)]

theorem trimStart_lower (t : Text) : trimStart (lower t) = lower (trimStart t) := by
  rw [trimStart, lower, List.dropWhile_map]
  have hwhite : isWhite ∘ Char.toLower = isWhite := funext isWhite_toLower
  rw [hwhite, lower, trimStart]

/-- Trimming does not look at the case of letters. -/
theorem trim_lower (t : Text) : trim (lower t) = lower (trim t) := by
  have hreverse : ∀ s : Text, (lower s).reverse = lower s.reverse := fun s => List.map_reverse.symm
  rw [trim, trimEnd_eq_reverse, trimStart_lower, hreverse, trimStart_lower, hreverse, trim,
    trimEnd_eq_reverse]

/-- **Trimmed texts are equal but for case exactly if the texts are the same name.** -/
theorem equalsIgnoringCase_trim_iff {s t : Text} :
    equalsIgnoringCase (trim s) (trim t) = true ↔ SameName s t := by
  rw [equalsIgnoringCase, beq_iff_eq]
  constructor
  · intro h
    exact ⟨trim s, trim t, surrounds_trim s, surrounds_trim t, lower_eq_lower_iff.mp h⟩
  · rintro ⟨core, other, hs, ht, hsame⟩
    rw [hs.trim_eq, ht.trim_eq, ← trim_lower, ← trim_lower, lower_eq_lower_iff.mpr hsame]

end CanvasFlutter.Text
