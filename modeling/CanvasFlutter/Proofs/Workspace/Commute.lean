import CanvasFlutter.Proofs.Workspace.Alike
import CanvasFlutter.Proofs.Workspace.Gap

namespace CanvasFlutter

/-!
# `CanvasFlutter.Proofs.Workspace.Commute` — actions whose order does not matter

Two actions commute on a workspace if each has the same result before and after the other and both
orders leave the same workspace. So it is if neither comes by what the other changes: then each
does, after the other, what it would have done before.

## Contents
- **Commuting.** `FileAction.Commutes`; `commutes_of_idle`.
- **Apart.** `commutes_of_apart`: actions that change disjoint places and ignore each other's.
- **Matching runs.** `FileAction.Matches`; `Commutes.of_matches`: from one workspace to another.
-/

open Entry

/-! ## Commuting -/

/-- Alterations make nothing where nothing is missing. -/
theorem Workspace.Alters.of_there {may make : List String → Prop} {w w' : Workspace}
    (h : w.Alters may make w') (hthere : ∀ q, make q → w.top.face? q ≠ none) :
    w.Alters may (fun _ => False) w' :=
  ⟨h.terrain, h.tidy, fun q hq => .inl ((h.face q hq).resolve_right
    fun ⟨hmake, hnone, _⟩ => hthere q hmake hnone)⟩

namespace FileAction

variable {ε δ α β : Type} {t : Terrain} {w u : Workspace}
variable {action : FileAction ε α} {other : FileAction δ β}

/-- Each of two actions has the same result before and after the other, and both orders leave the
same workspace. -/
structure Commutes (action : FileAction ε α) (other : FileAction δ β) (w : Workspace) : Prop where
  first : (action.runOn (other.runOn w).2).1 = (action.runOn w).1
  second : (other.runOn (action.runOn w).2).1 = (other.runOn w).1
  after : (other.runOn (action.runOn w).2).2 = (action.runOn (other.runOn w).2).2

/-- Actions that leave everything alone commute. -/
theorem commutes_of_idle (hfirst : (action.runOn w).2 = w) (hsecond : (other.runOn w).2 = w) :
    Commutes action other w := by
  refine ⟨?_, ?_, ?_⟩
  · rw [hsecond]
  · rw [hfirst]
  · rw [hfirst, hsecond, hfirst]

/-! ## Apart -/

/-- **Actions commute that keep apart**: each changes places of its own and ignores those of the
other, and nothing is missing where they make folders. -/
theorem commutes_of_apart {mine yours make : List String → Prop} (htidy : w.top.Tidy)
    (hfirst : Does w.terrain mine make action fun _ => True)
    (hsecond : Does w.terrain yours make other fun _ => True)
    (hfirstIgnores : Ignores w.terrain yours action fun _ => True)
    (hsecondIgnores : Ignores w.terrain mine other fun _ => True)
    (hapart : ∀ q, mine q → ¬ yours q)
    (hmake : ∀ q, make q → w.top.face? q ≠ none ∧ ¬ mine q ∧ ¬ yours q) :
    Commutes action other w := by
  have ha := (hfirst.alters rfl htidy).of_there fun q hq => (hmake q hq).1
  have hb := (hsecond.alters rfl htidy).of_there fun q hq => (hmake q hq).1
  obtain ⟨hresultA, hafterA, -⟩ := hfirstIgnores _ _ (hb.alike htidy (by simp))
  obtain ⟨hresultB, hafterB, -⟩ := hsecondIgnores _ _ (ha.alike htidy (by simp))
  refine ⟨hresultA, hresultB, ?_⟩
  -- After the one has run nothing is missing there either, so the other leaves its changes alone.
  have hthere : ∀ {own : List String → Prop} {v : Workspace}, w.Alters own (fun _ => False) v →
      (∀ q, make q → ¬ own q) → ∀ q, make q → v.top.face? q ≠ none := by
    intro own v halters hown q hq
    rw [halters.face_of_ne_none (hown q hq) (hmake q hq).1]
    exact (hmake q hq).1
  have hkeepA := (hsecond.alters ha.terrain (ha.tidy htidy)).of_there
    (hthere ha fun q hq => (hmake q hq).2.1)
  have hkeepB := (hfirst.alters hb.terrain (hb.tidy htidy)).of_there
    (hthere hb fun q hq => (hmake q hq).2.2)
  refine Workspace.eq_of_face? (hafterB.terrain.2.trans hafterA.terrain.2.symm) hafterA.tidy.2
    hafterB.tidy.2 fun q => ?_
  by_cases hmine : mine q
  · have hyours := hapart q hmine
    rw [hafterA.face q hyours]
    exact (hkeepA.face q hyours).resolve_right fun h => h.1
  · rw [hafterB.face q hmine]
    exact ((hkeepB.face q hmine).resolve_right fun h => h.1).symm

/-! ## Matching runs -/

/-- An action comes to the same from two workspaces, or it leaves both alone with the same result. -/
def Matches (action : FileAction ε α) (w u : Workspace) : Prop :=
  action.runOn u = action.runOn w ∨ ∃ r, action.runOn w = (r, w) ∧ action.runOn u = (r, u)

/-- Actions that commute on a workspace commute on one from which they come to the same. -/
theorem Commutes.of_matches (h : Commutes action other u) (hfirst : Matches action w u)
    (hsecond : Matches other w u) : Commutes action other w := by
  obtain ⟨ha, hb, hafter⟩ := h
  rcases hfirst with hfirst | ⟨r, hfirst, hfirst'⟩
  · rcases hsecond with hsecond | ⟨s, hsecond, hsecond'⟩
    · rw [hfirst] at ha hb hafter
      rw [hsecond] at ha hb hafter
      exact ⟨ha, hb, hafter⟩
    · rw [hsecond', hfirst] at hb hafter
      refine ⟨?_, ?_, ?_⟩
      · rw [hsecond]
      · rw [hsecond]
        exact hb
      · rw [hsecond]
        exact hafter
  · rcases hsecond with hsecond | ⟨s, hsecond, hsecond'⟩
    · rw [hfirst', hsecond] at ha hafter
      refine ⟨?_, ?_, ?_⟩
      · rw [hfirst]
        exact ha
      · rw [hfirst]
      · rw [hfirst]
        exact hafter
    · exact commutes_of_idle (by rw [hfirst]) (by rw [hsecond])

end FileAction

end CanvasFlutter
