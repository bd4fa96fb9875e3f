import CanvasFlutter.Proofs.Route.Distinct

namespace CanvasFlutter

/-!
# `CanvasFlutter.Proofs.Route.Least` — the search for a free number ends, and soon

Telling namesakes apart is a search without a bound: one number after the other, until neither slug
nor class is taken. It ends for every page, at the least free number, and no page asks what comes
after it.

## Contents
- **Search.** `Available`, `Settles`: a run of the search; `settles_iff`: where it ends.
- **Choice.** `exists_settles_choose`: the search of a page ends within twice the pages before it.
- **Plan.** `planAfter` by index and by prefix; `planRoutes_settles`.
-/

namespace Route

variable {before : List Route} {name : Text} {index m n : Nat}

/-! ## Search -/

/-- A route whose slug and whose class no route before it has. -/
def Available (before : List Route) (r : Route) : Prop := ∀ other ∈ before, other.Separate r

/-- The search for a number that is free: started at the first number, it ends at the second. -/
inductive Settles (before : List Route) (name : Text) (index : Nat) : Nat → Nat → Prop where
  | free {n : Nat} (h : Available before (candidate name index n)) :
      Settles before name index n n
  | taken {m n : Nat} (h : ¬ Available before (candidate name index m))
      (rest : Settles before name index (m + 1) n) : Settles before name index m n

theorem Settles.available (h : Settles before name index m n) :
    Available before (candidate name index n) := by
  induction h with
  | free h => exact h
  | taken _ _ ih => exact ih

theorem Settles.le (h : Settles before name index m n) : m ≤ n := by
  induction h with
  | free _ => exact Nat.le_refl _
  | taken _ _ ih => omega

/-- What the search passes by is taken. -/
theorem Settles.not_available (h : Settles before name index m n) {k : Nat} (hm : m ≤ k)
    (hn : k < n) : ¬ Available before (candidate name index k) := by
  induction h with
  | free _ => omega
  | @taken m n htaken _ ih =>
      rcases Nat.eq_or_lt_of_le hm with rfl | hlt
      · exact htaken
      · exact ih hlt hn

/-- The search ends at a free number if it passes by none. -/
theorem settles_of_available (hn : Available before (candidate name index n)) :
    ∀ {m : Nat}, m ≤ n → (∀ k, m ≤ k → k < n → ¬ Available before (candidate name index k)) →
      Settles before name index m n := by
  intro m hle hbelow
  -- on the numbers that are left to try
  induction hsteps : n - m generalizing m with
  | zero =>
      obtain rfl : m = n := by omega
      exact .free hn
  | succ steps ih =>
      have hrest := ih (m := m + 1) (by omega) (fun k hk => hbelow k (by omega)) (by omega)
      exact .taken (hbelow m (Nat.le_refl m) (by omega)) hrest

/-- The search ends at the least free number from where it starts, and nowhere else. -/
theorem settles_iff : Settles before name index m n ↔
    m ≤ n ∧ Available before (candidate name index n)
      ∧ ∀ k, m ≤ k → k < n → ¬ Available before (candidate name index k) :=
  ⟨fun h => ⟨h.le, h.available, fun _ => h.not_available⟩,
    fun ⟨hle, hn, hbelow⟩ => settles_of_available hn hle hbelow⟩

/-! ## Choice -/

/-- The search of a page ends, and at the number that its route has: each route before it takes at
most one number by its slug and one by its class. -/
theorem exists_settles_choose (before : List Route) (name : Text) (index : Nat) :
    ∃ number, choose before name index = candidate name index number
      ∧ Settles before name index 1 number ∧ number ≤ 2 * before.length + 1 := by
  obtain ⟨number, hfind, hchoose⟩ := find?_choose before name index
  rw [numbers, List.find?_map, Option.map_eq_some_iff] at hfind
  obtain ⟨tries, hfind, rfl⟩ := hfind
  obtain ⟨hfree, hmem, hbelow⟩ := List.find?_range_eq_some.mp hfind
  have hlt : tries < 2 * before.length + 1 := List.mem_range.mp hmem
  refine ⟨tries + 1, hchoose, settles_iff.mpr ⟨by omega, isFree_iff.mp hfree, ?_⟩, by omega⟩
  intro k hk hlt hfree
  obtain ⟨j, rfl⟩ : ∃ j, k = j + 1 := ⟨k - 1, by omega⟩
  have htaken := hbelow j (by omega)
  simp [isFree_iff.mpr hfree] at htaken

/-! ## Plan -/

/-- The route of a page is chosen by what stands before it. -/
theorem getElem?_planAfter (before : List Route) (names : List String) (i : Nat) :
    (planAfter before names)[i]? = names[i]?.map fun name =>
      choose (before ++ (planAfter before names).take i) name.toList (before.length + i) := by
  induction names generalizing before i with
  | nil => simp [planAfter]
  | cons name rest ih =>
      cases i with
      | zero => simp [planAfter]
      | succ i => simp [planAfter, ih, Nat.add_assoc, Nat.add_comm 1 i]

/-- The first routes are those of the first pages. -/
theorem take_planAfter (before : List Route) (names : List String) (k : Nat) :
    (planAfter before names).take k = planAfter before (names.take k) := by
  induction names generalizing before k with
  | nil => simp [planAfter]
  | cons name rest ih =>
      cases k with
      | zero => simp [planAfter]
      | succ k => simp [planAfter, ih]

end Route

theorem getElem?_planRoutes {pages : List Page} {i : Nat} {page : Page} (h : pages[i]? = some page) :
    (planRoutes pages)[i]?
      = some (Route.choose ((planRoutes pages).take i) page.name.toList i) := by
  simp [planRoutes, planNames, Route.getElem?_planAfter, h]

theorem take_planRoutes (pages : List Page) (k : Nat) :
    (planRoutes pages).take k = planRoutes (pages.take k) := by
  simp [planRoutes, planNames, Route.take_planAfter, List.map_take]

/-- **Every page gets a route of its own, with the least number that is free for it.** The search
for that number ends after at most one more try than twice the pages before it, and no page after it
has a say. -/
theorem planRoutes_settles (pages : List Page) :
    (planRoutes pages).length = pages.length
      ∧ ((planRoutes pages).map (·.slug)).Nodup
      ∧ ((planRoutes pages).map (·.className)).Nodup
      ∧ (∀ i page, pages[i]? = some page → ∃ number,
          (planRoutes pages)[i]? = some (Route.candidate page.name.toList i number)
            ∧ Route.Settles ((planRoutes pages).take i) page.name.toList i 1 number
            ∧ number ≤ 2 * i + 1
            ∧ 1 ≤ number
            ∧ (∀ r ∈ (planRoutes pages).take i,
                r.slug ≠ (Route.candidate page.name.toList i number).slug
                  ∧ r.className ≠ (Route.candidate page.name.toList i number).className)
            ∧ ∀ less, 1 ≤ less → less < number → ∃ r ∈ (planRoutes pages).take i,
                r.slug = (Route.candidate page.name.toList i less).slug
                  ∨ r.className = (Route.candidate page.name.toList i less).className)
      ∧ ∀ k others, others.take k = pages.take k →
          (planRoutes others).take k = (planRoutes pages).take k := by
  have hseparate := separate_planRoutes pages
  refine ⟨length_planRoutes pages, List.pairwise_map.mpr (hseparate.imp And.left),
    List.pairwise_map.mpr (hseparate.imp And.right), ?_, ?_⟩
  · intro i page hpage
    obtain ⟨number, hchoose, hsettles, hle⟩ :=
      Route.exists_settles_choose ((planRoutes pages).take i) page.name.toList i
    have hbound : number ≤ 2 * i + 1 := by
      have hlength := List.length_take_le i (planRoutes pages)
      omega
    refine ⟨number, by rw [getElem?_planRoutes hpage, hchoose], hsettles, hbound, hsettles.le,
      hsettles.available, fun less hless hlt => ?_⟩
    have htaken := hsettles.not_available hless hlt
    simpa only [Route.Available, Route.Separate, Classical.not_forall,
      Classical.not_and_iff_not_or_not, Classical.not_not, exists_prop, ne_eq] using htaken
  · intro k others hothers
    rw [take_planRoutes, take_planRoutes, hothers]

/-- Pages whose names run into each other, and into the numbers that others got: by the slug, by the
class, and by both. -/
def numberedNames : List Page := [⟨"a", []⟩, ⟨"A", []⟩, ⟨"a_2", []⟩, ⟨"A 2", []⟩]

theorem planRoutes_settles_numberedNames :
    planRoutes numberedNames
        = [⟨"a", "APage"⟩, ⟨"a_2", "A2Page"⟩, ⟨"a_2_2", "A22Page"⟩, ⟨"a2_3", "A23Page"⟩]
      ∧ numberedNames[3]? = some ⟨"A 2", []⟩
      ∧ (∃ number, (planRoutes numberedNames)[3]?
            = some (Route.candidate "A 2".toList 3 number)
          ∧ Route.Settles ((planRoutes numberedNames).take 3) "A 2".toList 3 1 number
          ∧ number ≤ 7)
      ∧ (numberedNames.take 2).take 2 = numberedNames.take 2
      ∧ (planRoutes (numberedNames.take 2)).take 2 = (planRoutes numberedNames).take 2 := by
  obtain ⟨-, -, -, hnumber, hfirst⟩ := planRoutes_settles numberedNames
  obtain ⟨number, hroute, hsettles, hle, -⟩ := hnumber 3 ⟨"A 2", []⟩ rfl
  exact ⟨by decide +kernel, rfl, ⟨number, hroute, hsettles, hle⟩, rfl,
    hfirst 2 (numberedNames.take 2) rfl⟩

end CanvasFlutter
