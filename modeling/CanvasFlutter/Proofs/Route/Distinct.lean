import CanvasFlutter.Route.Plan

namespace CanvasFlutter

/-!
# `CanvasFlutter.Proofs.Route.Distinct` — no two pages share a route

The candidates of a page differ in slug and in class from number to number, so each route before it
takes at most one number by its slug and one by its class. Among one more number than that there is
a free one.

## Contents
- **Candidates.** `slug_candidate_inj`, `className_candidate_inj`.
- **Choice.** `isFree_choose`: the route that is chosen is free.
- **Plan.** `separate_planRoutes`.
-/

namespace Route

variable {before : List Route} {name : Text} {index : Nat}

/-! ## Candidates -/

theorem toString_toList_inj {m n : Nat} (h : (toString m).toList = (toString n).toList) :
    m = n := by
  have hdigits : Nat.toDigits 10 m = Nat.toDigits 10 n := by simpa using h
  rw [← Nat.ofDigitChars_toDigits (b := 10) (n := m) (by decide) (by decide), hdigits,
    Nat.ofDigitChars_toDigits (by decide) (by decide)]

/-- The text that a number puts into the slug of a candidate. -/
def slugMark (number : Nat) : Text := if number = 1 then [] else '_' :: (toString number).toList

/-- The text that a number puts into the class of a candidate. -/
def classMark (number : Nat) : Text := if number = 1 then [] else (toString number).toList

theorem toList_slug_candidate (name : Text) (index number : Nat) :
    (candidate name index number).slug.toList = baseSlug name index ++ slugMark number := by
  rw [candidate, slugMark]
  split <;> simp

theorem toList_className_candidate (name : Text) (index number : Nat) :
    (candidate name index number).className.toList
      = baseClass name index ++ classMark number ++ "Page".toList := by
  rw [candidate, classMark]
  split <;> simp

theorem digits_ne_nil (number : Nat) : (toString number).toList ≠ [] := by
  simp

theorem slugMark_inj {m n : Nat} (h : slugMark m = slugMark n) : m = n := by
  unfold slugMark at h
  split at h <;> split at h
  · omega
  · simp at h
  · simp at h
  · exact toString_toList_inj (List.cons.inj h).2

theorem classMark_inj {m n : Nat} (h : classMark m = classMark n) : m = n := by
  unfold classMark at h
  split at h <;> split at h
  · omega
  · exact absurd h.symm (digits_ne_nil n)
  · exact absurd h (digits_ne_nil m)
  · exact toString_toList_inj h

/-- Candidates with different numbers have different slugs. -/
theorem slug_candidate_inj {m n : Nat}
    (h : (candidate name index m).slug = (candidate name index n).slug) : m = n := by
  have hlist := congrArg String.toList h
  rw [toList_slug_candidate, toList_slug_candidate] at hlist
  exact slugMark_inj (List.append_cancel_left hlist)

/-- Candidates with different numbers have different classes. -/
theorem className_candidate_inj {m n : Nat}
    (h : (candidate name index m).className = (candidate name index n).className) : m = n := by
  have hlist := congrArg String.toList h
  rw [toList_className_candidate, toList_className_candidate] at hlist
  exact classMark_inj (List.append_cancel_left (List.append_cancel_right hlist))

/-! ## Choice -/

/-- Two routes that share neither slug nor class. -/
def Separate (r s : Route) : Prop := r.slug ≠ s.slug ∧ r.className ≠ s.className

theorem isFree_iff {r : Route} : isFree before r = true ↔ ∀ other ∈ before, other.Separate r := by
  simp [isFree, Separate]

/-- What a number is taken by, if it is taken: a slug on the left or a class on the right. -/
def taking (before : List Route) (name : Text) (index number : Nat) : String ⊕ String :=
  let r := candidate name index number
  if r.slug ∈ before.map (·.slug) then .inl r.slug else .inr r.className

/-- The slugs and the classes of routes. -/
def taken (before : List Route) : List (String ⊕ String) :=
  before.map (.inl ·.slug) ++ before.map (.inr ·.className)

theorem taking_inj {m n : Nat} (h : taking before name index m = taking before name index n) :
    m = n := by
  rw [taking, taking] at h
  split at h <;> split at h
  · exact slug_candidate_inj (Sum.inl.inj h)
  · simp at h
  · simp at h
  · exact className_candidate_inj (Sum.inr.inj h)

theorem taking_mem_taken {number : Nat}
    (h : isFree before (candidate name index number) = false) :
    taking before name index number ∈ taken before := by
  have hsome : ∃ other ∈ before, ¬ other.Separate (candidate name index number) := by
    have hnot := mt isFree_iff.mpr (Bool.eq_false_iff.mp h)
    simpa only [Classical.not_forall, exists_prop] using hnot
  obtain ⟨other, hother, hshared⟩ := hsome
  rw [taking, taken]
  split
  · next hslug =>
      obtain ⟨r, hr, heq⟩ := List.mem_map.mp hslug
      exact List.mem_append_left _ (List.mem_map.mpr ⟨r, hr, congrArg Sum.inl heq⟩)
  · next hslug =>
      have hne : other.slug ≠ (candidate name index number).slug := fun heq =>
        hslug (heq ▸ List.mem_map_of_mem hother)
      have heq : other.className = (candidate name index number).className :=
        Classical.not_not.mp fun hclass => hshared ⟨hne, hclass⟩
      exact List.mem_append_right _ (List.mem_map.mpr ⟨other, hother, congrArg Sum.inr heq⟩)

/-- The numbers that are tried. -/
def numbers (before : List Route) : List Nat := (List.range (2 * before.length + 1)).map (· + 1)

/-- Among the numbers that are tried there is a free one. -/
theorem exists_free (before : List Route) (name : Text) (index : Nat) :
    ∃ number ∈ numbers before, isFree before (candidate name index number) = true := by
  refine Classical.not_not.mp fun hnone => ?_
  have hsubset : (numbers before).map (taking before name index) ⊆ taken before := by
    intro t ht
    obtain ⟨number, hnumber, rfl⟩ := List.mem_map.mp ht
    exact taking_mem_taken (Bool.eq_false_iff.mpr fun hfree => hnone ⟨number, hnumber, hfree⟩)
  have hnumbers : (numbers before).Nodup :=
    List.pairwise_map.mpr (List.nodup_range.imp fun hne heq => hne (by omega))
  have hnodup : ((numbers before).map (taking before name index)).Nodup :=
    List.pairwise_map.mpr (hnumbers.imp fun hne heq => hne (taking_inj heq))
  have hlength := hnodup.length_le_of_subset hsubset
  simp only [numbers, taken, List.length_map, List.length_range, List.length_append] at hlength
  omega

/-- The route that is chosen is the candidate with the least number that is free. -/
theorem find?_choose (before : List Route) (name : Text) (index : Nat) :
    ∃ number, (numbers before).find? (fun number => isFree before (candidate name index number))
        = some number ∧ choose before name index = candidate name index number := by
  obtain ⟨free, hfree⟩ := Option.isSome_iff_exists.mp
    (List.find?_isSome.mpr (exists_free before name index))
  refine ⟨free, hfree, ?_⟩
  rw [choose, ← numbers, hfree]
  rfl

/-- The route that is chosen shares neither its slug nor its class with those before it. -/
theorem isFree_choose (before : List Route) (name : Text) (index : Nat) :
    ∀ other ∈ before, other.Separate (choose before name index) := by
  obtain ⟨number, hfind, heq⟩ := find?_choose before name index
  rw [heq]
  have hfree := List.find?_some (p := fun number => isFree before (candidate name index number)) hfind
  exact isFree_iff.mp hfree

/-! ## Plan -/

theorem separate_planAfter (names : List String) (h : before.Pairwise Separate) :
    (before ++ planAfter before names).Pairwise Separate := by
  induction names generalizing before with
  | nil => simpa [planAfter] using h
  | cons name rest ih =>
      have hnext : (before ++ [choose before name.toList before.length]).Pairwise Separate :=
        List.pairwise_append.mpr ⟨h, List.pairwise_singleton _ _, fun other hother r hr => by
          rw [List.mem_singleton.mp hr]
          exact isFree_choose _ _ _ other hother⟩
      simpa [planAfter] using ih hnext

end Route

/-- **No two pages share a slug or a class.** -/
theorem separate_planRoutes (pages : List Page) : (planRoutes pages).Pairwise Route.Separate := by
  simpa [planRoutes, planNames] using
    Route.separate_planAfter (pages.map Page.name) List.Pairwise.nil

end CanvasFlutter
