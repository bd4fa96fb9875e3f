import CanvasFlutter.Proofs.Workspace.Making
import CanvasFlutter.Proofs.Workspace.Tour
import CanvasFlutter.Proofs.Workspace.Trail

namespace CanvasFlutter

/-!
# `CanvasFlutter.Proofs.Workspace.Gap` — paths on whose way folders are missing

Making a folder makes what is missing on the way of its path, so afterwards the same path may lead
elsewhere. It does not if the path goes up from things that are there only: then it leads to a
folder and goes down from there, and what is missing is the rest of the way down.

## Contents
- **Firm paths.** `Workspace.IsFirm`.
- **Making.** `makeFolders_idle_or_free`: nothing is made unless some parent of the path is free.
- **Gaps.** `Workspace.Gap`; `exists_leads_or_gap`: what it means that something can be made;
  `Leads.face?_eq_none`: in a folder that is there.
- **Open ways.** `OpensWay.unique`; `runOn_makeFolders_opened`: the beginning of a way may have been
  made before.
-/

open Entry

namespace Workspace

/-! ## Firm paths -/

/-- Every `..` of a path goes up from something that is there. -/
def IsFirm (w : Workspace) (path : String) : Prop :=
  ∀ front back q, Path.steps path = front ++ ".." :: back →
    w.terrain.aimFrom true maxLinks (w.terrain.start path) front = some q → w.top.face? q ≠ none

theorem isFirm_of_no_dots {w : Workspace} {path : String} (h : ".." ∉ Path.steps path) :
    w.IsFirm path :=
  fun _ _ _ hsteps _ => absurd (by simp [hsteps]) h

end Workspace

/-! ## Making -/

namespace FileAction

variable {w w' : Workspace} {path : String} {parents : List String} {r : Except FileFault Unit}

theorem orFolder_error_cases {fault : FileFault} (h : orFolder path (.error fault, w) = (r, w')) :
    w' = w ∧ (r = .ok () → w.isFolder path = true) := by
  unfold orFolder at h
  dsimp only at h
  split at h
  · next hfolder =>
      obtain ⟨-, rfl⟩ := Prod.mk.inj h
      exact ⟨rfl, fun _ => hfolder⟩
  · obtain ⟨rfl, rfl⟩ := Prod.mk.inj h
    exact ⟨rfl, fun hok => by cases hok⟩

/-- Making a folder leaves everything alone, unless the folder's name is free or the path leads
nowhere and something is made for its parents. -/
theorem makeFirst_step (hpath : path ≠ "") (h : (makeFirst (path :: parents)).runOn w = (r, w')) :
    (w' = w ∧ (r = .ok () → w.isFolder path = true))
      ∨ (∃ place name asFolder, w.resolve false path = .ok (.free place name asFolder))
      ∨ w.resolve false path = .error .notFound ∧ ((makeFirst parents).runOn w).2 ≠ w := by
  cases hresolve : w.resolve false path with
  | error fault =>
      have hmake := runOn_makeFolder_of_error hresolve
      by_cases hfault : fault = .notFound
      · subst hfault
        cases hparents : (makeFirst parents).runOn w with
        | mk first v =>
            by_cases hv : v = w
            · subst hv
              refine .inl ?_
              cases first with
              | ok _ =>
                  rw [runOn_makeFirst_of_missing hpath hmake hparents, hmake] at h
                  exact orFolder_error_cases h
              | error fault =>
                  rw [runOn_makeFirst_of_failed hpath hmake hparents] at h
                  obtain ⟨rfl, rfl⟩ := Prod.mk.inj h
                  exact ⟨rfl, fun hok => by cases hok⟩
            · exact .inr (.inr ⟨rfl, hv⟩)
      · rw [runOn_makeFirst_of_found hpath hmake (by simpa using hfault)] at h
        exact .inl (orFolder_error_cases h)
  | ok spot =>
      cases spot with
      | free place name asFolder => exact .inr (.inl ⟨place, name, asFolder, rfl⟩)
      | taken place entry =>
          have hmake : (makeFolder path).runOn w = (.error .exists, w) := by
            rw [makeFolder, runOn_bind, runOn_resolve, hresolve]
            rfl
          rw [runOn_makeFirst_of_found hpath hmake (by simp)] at h
          exact .inl (orFolder_error_cases h)

/-- **What is made is free first**: if making paths changes something, one of them leads to a free
name. -/
theorem exists_free_of_makeFirst {paths : List String} (h : ((makeFirst paths).runOn w).2 ≠ w) :
    ∃ p ∈ paths, ∃ place name asFolder, w.resolve false p = .ok (.free place name asFolder) := by
  induction paths with
  | nil => exact absurd rfl h
  | cons path parents ih =>
      have hpath : path ≠ "" := by
        rintro rfl
        exact h rfl
      rcases makeFirst_step hpath Prod.mk.eta.symm with ⟨hsame, -⟩ | hfree | ⟨-, hparents⟩
      · exact absurd hsame h
      · exact ⟨path, by simp, hfree⟩
      · obtain ⟨p, hp, hfree⟩ := ih hparents
        exact ⟨p, List.mem_cons_of_mem _ hp, hfree⟩

/-- Making a folder with its parents leaves everything alone, unless the path or a parent of it
leads to a free name and the path itself leads nowhere yet or to a free name. -/
theorem makeFolders_idle_or_free (hpath : path ≠ "")
    (h : (makeFolders path).runOn w = (r, w')) :
    (w' = w ∧ (r = .ok () → w.isFolder path = true))
      ∨ (∀ fault, w.resolve false path = .error fault → fault = .notFound)
        ∧ ∃ p ∈ Path.ancestors path, ∃ place name asFolder,
          w.resolve false p = .ok (.free place name asFolder) := by
  obtain ⟨parents, hparents⟩ := Path.exists_ancestors path
  rw [makeFolders, hparents] at h
  rw [hparents]
  rcases makeFirst_step hpath h with hidle | hfree | ⟨hnotFound, hmade⟩
  · exact .inl hidle
  · exact .inr ⟨fun fault hfault => by simp [hfault] at hfree, path, by simp, hfree⟩
  · obtain ⟨p, hp, hfree⟩ := exists_free_of_makeFirst hmade
    refine .inr ⟨fun fault hfault => ?_, p, List.mem_cons_of_mem _ hp, hfree⟩
    exact (Except.error.inj (hnotFound.symm.trans hfault)).symm

/-- A path that is too long or holds a zero leads nowhere in any workspace, so nothing is made. -/
theorem exists_fault_of_refused (hpath : path ≠ "")
    (h : '\x00' ∈ path.toList ∨ maxPathBytes < path.utf8ByteSize) :
    ∃ fault, ∀ w, (makeFolders path).runOn w = (.error fault, w) := by
  have hempty : path.isEmpty = false := by
    rw [← Bool.not_eq_true, String.isEmpty_iff]
    exact hpath
  have hresolve : ∃ fault, fault ≠ FileFault.notFound ∧ ∀ (w : Workspace) (follow : Bool),
      w.resolve follow path = .error fault := by
    by_cases hnul : path.toList.contains '\x00' = true
    · refine ⟨.nulInName, by simp, fun w follow => ?_⟩
      rw [Workspace.resolve, hempty, if_neg (by simp), if_pos hnul]
    · refine ⟨.nameTooLong, by simp, fun w follow => ?_⟩
      have hlong := h.resolve_left fun hmem => hnul (by simpa using hmem)
      rw [Workspace.resolve, hempty, if_neg (by simp), if_neg hnul, if_pos hlong]
  obtain ⟨fault, hfault, hall⟩ := hresolve
  obtain ⟨parents, hparents⟩ := Path.exists_ancestors path
  refine ⟨fault, fun w => ?_⟩
  rw [makeFolders, hparents, runOn_makeFirst_of_found hpath
    (runOn_makeFolder_of_error (hall w false)) (by simpa using hfault), orFolder,
    isFolder_of_resolve_error (hall w true)]
  rfl

end FileAction

/-! ## Gaps -/

namespace Path

/-- A path does not end in a slash or a dot, if it has steps. -/
def EndsInStep (path : String) : Prop :=
  steps path ≠ [] → ∃ before, parts path = before ++ (steps path).getLast?.toList

theorem EndsInStep.of_parent {path parent : String} (h : parent? path = some parent) :
    EndsInStep parent := by
  intro hne
  obtain ⟨⟨last, hlast, -, -⟩, -⟩ := steps_parent h
  have hsteps : steps path ≠ [] := by simp [hlast, hne]
  obtain ⟨parent', -, hparent, -, -, -, hending⟩ := exists_parent path hsteps
  obtain rfl := Option.some.inj (h.symm.trans hparent)
  exact hending hne

/-- The parents of a path end in a step, and if the path does, so do all its ancestors. -/
theorem EndsInStep.of_mem_ancestors {path ancestor : String} (h : EndsInStep path)
    (hmem : ancestor ∈ ancestors path) : EndsInStep ancestor := by
  have hfrom : ∀ {fuel : Nat} {path : String}, EndsInStep path →
      ancestor ∈ ancestorsFrom fuel path → EndsInStep ancestor := by
    intro fuel
    induction fuel with
    | zero =>
        intro path h hmem
        exact List.mem_singleton.mp hmem ▸ h
    | succ fuel ih =>
        intro path h hmem
        rw [ancestorsFrom] at hmem
        split at hmem
        · next parent hparent =>
            rcases List.mem_cons.mp hmem with rfl | hmem
            · exact h
            · exact ih (.of_parent hparent) hmem
        · exact List.mem_singleton.mp hmem ▸ h
  exact hfrom h hmem

end Path

namespace Workspace

variable {w : Workspace} {path name : String} {place names front : List String}

/-- A path without steps leads to where it starts and not to a free name. -/
theorem steps_ne_nil_of_free {asFolder : Bool}
    (h : w.resolve false path = .ok (.free place name asFolder))
    (hmissing : w.top.face? (place ++ [name]) = none) : Path.steps path ≠ [] := by
  intro hsteps
  have hwalk := walk_of_resolve h
  have hblank : ∀ n ∈ Path.parts path, n = "" ∨ n = "." := fun n hn =>
    Terrain.isStep_eq_false_iff.mp (by simpa using List.filter_eq_nil_iff.mp hsteps n hn)
  have hstart : w.terrain.aimFrom false maxLinks (w.start path) (Path.parts path ++ [])
      = some (w.start path) := by
    rw [Terrain.aimFrom_blanks hblank, Terrain.aimFrom]
  rw [List.append_nil, aimFrom_of_walk hwalk] at hstart
  have hgone : w.top.get? (w.start path) = none := by
    rw [← Option.some.inj hstart]
    exact face?_eq_none_iff.mp hmissing
  rw [walk_nowhere hgone] at hwalk
  cases hwalk

/-- A walk without following that ends at a free name walks to a folder before the last step. -/
theorem exists_folder_of_walk_free {fuel : Nat} {start before : List String} {last : String}
    {asFolder : Bool} (hstep : Terrain.isStep last = true)
    (h : w.walk false fuel start (before ++ [last]) = .ok (.free place name asFolder)) :
    name = last ∧ ∃ children, w.walk true fuel start before = .ok (.taken place (.folder children)) := by
  obtain ⟨q, children, hlead⟩ := exists_walk_front (by simp [hstep]) h
  obtain ⟨fuel, hgo⟩ := exists_walk_append hlead
  have hblank : ¬ (last = "" ∨ last = ".") := fun hor => by
    rw [Terrain.isStep_eq_false_iff.mpr hor] at hstep
    cases hstep
  have hfolder := holds_of_walk hlead
  rw [hgo false [last] (by simp)] at h
  by_cases hup : last = ".."
  · rw [hup, walk_up hfolder] at h
    exact absurd h walk_nil_ne_free
  by_cases hlong : maxNameBytes < last.utf8ByteSize
  · rw [walk_long hfolder hblank hup hlong] at h
    cases h
  cases hlookup : children.lookup last with
  | none =>
      rw [walk_free hfolder hblank hup hlong hlookup rfl] at h
      obtain ⟨rfl, rfl, -⟩ := Spot.free.inj (Except.ok.inj h)
      exact ⟨rfl, children, hlead⟩
  | some entry =>
      cases entry with
      | link target =>
          rw [walk_lastLink hfolder hblank hup hlong hlookup rfl] at h
          cases h
      | _ =>
          rw [walk_child hfolder hblank hup hlong hlookup (by simp)] at h
          exact absurd h walk_nil_ne_free

/-- Where a path that ends in a step leads to a free name, its other steps lead to a folder, and
the free name is the last step. -/
theorem exists_leads_of_free {asFolder : Bool} (hends : Path.EndsInStep path)
    (h : w.resolve false path = .ok (.free place name asFolder)) :
    ∃ front, Path.steps path = front ++ [name] ∧ w.Leads ⟨Path.isAbsolute path, front⟩ place
      ∧ w.top.face? (place ++ [name]) = none := by
  have hwalk := walk_of_resolve h
  have hmissing : w.top.face? (place ++ [name]) = none := by
    obtain ⟨children, hfolder, hnone⟩ := holds_of_walk hwalk
    rw [face?_child hfolder, hnone]
    rfl
  have hsteps := steps_ne_nil_of_free h hmissing
  obtain ⟨front, last, hfront⟩ := (List.eq_nil_or_concat _).resolve_left hsteps
  rw [List.concat_eq_append] at hfront
  obtain ⟨before, hbefore⟩ := hends hsteps
  rw [hfront, List.getLast?_concat, Option.toList_some] at hbefore
  have hstep : Terrain.isStep last = true := by
    have hmem : last ∈ Path.steps path := by simp [hfront]
    exact (List.mem_filter.mp hmem).2
  have hfilter : before.filter Terrain.isStep = front := by
    have hall := hfront
    rw [Path.steps, hbefore, List.filter_append, List.filter_cons, if_pos hstep] at hall
    exact (List.append_inj' hall rfl).1
  rw [hbefore] at hwalk
  obtain ⟨rfl, children, hlead⟩ := exists_folder_of_walk_free hstep hwalk
  refine ⟨front, hfront, ⟨children, walk_congr ?_ hlead⟩, hmissing⟩
  rw [← hfilter, List.filter_filter]
  simp

/-- Nothing is below what is missing. -/
theorem face?_below_missing {top : Entry} {q : List String} (h : top.face? q = none)
    (more : List String) : top.face? (q ++ more) = none := by
  cases more with
  | nil => rwa [List.append_nil]
  | cons n more => exact face?_below (by simp [h]) n more

theorem isClear_of_missing {q : List String} (h : w.top.face? q = none) (names : List String) :
    w.terrain.IsClear q names := by
  intro front _ _
  show w.link? (q ++ front) = none
  unfold link?
  rw [face?_below_missing h]

/-- Behind something that is missing a firm path does not go up. -/
theorem IsFirm.no_dots (h : w.IsFirm path) {back q : List String}
    (hsteps : Path.steps path = front ++ back)
    (haim : w.terrain.aimFrom true maxLinks (w.terrain.start path) front = some q)
    (hmissing : w.top.face? q = none) : ".." ∉ back := by
  intro hmem
  obtain ⟨down, more, rfl, hdown⟩ := List.eq_append_cons_of_mem hmem
  have hnames : ∀ n ∈ down, ProperName n := fun n hn => by
    have hmem : n ∈ Path.steps path := by simp [hsteps, hn]
    exact Path.properName_of_mem_steps hmem fun heq => hdown (heq ▸ hn)
  have hend : w.terrain.aimFrom true maxLinks (w.terrain.start path) (front ++ down)
      = some (q ++ down) := by
    by_cases hne : down = []
    · rw [hne, List.append_nil, List.append_nil, haim]
    · rw [Terrain.aimFrom_append hne hnames, haim, Option.map_some]
      intro place hplace
      obtain rfl := Option.some.inj (haim.symm.trans hplace)
      exact isClear_of_missing hmissing down
  have hgone := face?_below_missing hmissing down
  exact h (front ++ down) more (q ++ down) (by simp [hsteps]) hend hgone

/-- A path leads to a folder and goes down from there, but the next name is missing. -/
structure Gap (w : Workspace) (path : String) (place names : List String) : Prop where
  way : ∃ front, Path.steps path = front ++ names ∧ w.Leads ⟨Path.isAbsolute path, front⟩ place
  passable : ∀ n ∈ names, ProperName n
  missing : ∃ n more, names = n :: more ∧ w.top.face? (place ++ [n]) = none

theorem Leads.aimFrom (h : w.Leads ⟨Path.isAbsolute path, front⟩ place) :
    w.terrain.aimFrom true maxLinks (w.terrain.start path) front = some place := by
  obtain ⟨children, hwalk⟩ := h
  exact aimFrom_of_walk hwalk

/-- Where a way leads to a folder, so does its beginning. -/
theorem Leads.exists_front {absolute : Bool} {front back : List String}
    (h : w.Leads ⟨absolute, front ++ back⟩ place)
    (hback : ∀ n ∈ back, Terrain.isStep n = true) : ∃ q, w.Leads ⟨absolute, front⟩ q := by
  by_cases hne : back = []
  · rw [hne, List.append_nil] at h
    exact ⟨place, h⟩
  · obtain ⟨children, hwalk⟩ := h
    have hsteps : back.filter Terrain.isStep ≠ [] := by rwa [List.filter_eq_self.mpr hback]
    obtain ⟨q, kids, hfront⟩ := exists_walk_front hsteps hwalk
    exact ⟨q, kids, hfront⟩

/-- Behind a folder that a path's first steps lead to, a missing name is where it points. -/
theorem Leads.aimFrom_missing (h : w.Leads ⟨Path.isAbsolute path, front⟩ place)
    (hname : ProperName name) (hmissing : w.top.face? (place ++ [name]) = none) :
    w.terrain.aimFrom true maxLinks (w.terrain.start path) (front ++ [name])
      = some (place ++ [name]) := by
  rw [Terrain.aimFrom_append (by simp) (by simpa using hname), h.aimFrom]
  · rfl
  · intro q hq inner hinner hne
    obtain rfl := Option.some.inj (h.aimFrom.symm.trans hq)
    obtain ⟨m, rest, rfl⟩ := List.exists_cons_of_ne_nil hne
    obtain ⟨rfl, rfl⟩ : m = name ∧ rest = [] := by simpa using hinner
    show w.link? (place ++ [m]) = none
    unfold link?
    rw [hmissing]

/-- A free name that the path of something within a folder or of its parents leads to, by the steps
of the folder's path. -/
theorem exists_steps_of_free {folder p n : String} {asFolder : Bool}
    (hpath : ∀ m ∈ Path.parts path, ProperName m) (hp : p ∈ Path.ancestors (Path.join folder path))
    (hfree : w.resolve false p = .ok (.free place n asFolder)) :
    ∃ front, front ++ [n] <+: Path.steps folder ++ Path.parts path
      ∧ (∀ m ∈ front, Terrain.isStep m = true) ∧ w.Leads ⟨Path.isAbsolute folder, front⟩ place
      ∧ w.top.face? (place ++ [n]) = none := by
  have hjoin := Path.descends_join path hpath folder
  have hends : Path.EndsInStep p := by
    refine Path.EndsInStep.of_mem_ancestors (fun _ => ?_) hp
    obtain ⟨before, hbefore⟩ := hjoin.ending
    refine ⟨before, ?_⟩
    rw [hbefore, hjoin.steps, List.getLast?_append,
      List.getLast?_eq_some_getLast (Path.parts_ne_nil path)]
    rfl
  obtain ⟨front, hfront, hleads, hmissing⟩ := exists_leads_of_free hends hfree
  obtain ⟨hbegins, habsolute⟩ := Path.steps_of_mem_ancestors hp
  rw [habsolute, hjoin.absolute] at hleads
  rw [hfront, hjoin.steps] at hbegins
  refine ⟨front, hbegins, fun m hm => ?_, hleads, hmissing⟩
  have hmem : m ∈ Path.steps p := by simp [hfront, hm]
  exact (List.mem_filter.mp hmem).2

/-- **Where something can be made** for a path within a folder, the folder's path leads to a folder
or has a gap. -/
theorem exists_leads_or_gap {folder p n : String} {asFolder : Bool} (hfirm : w.IsFirm folder)
    (hpath : ∀ m ∈ Path.parts path, ProperName m) (hp : p ∈ Path.ancestors (Path.join folder path))
    (hfree : w.resolve false p = .ok (.free place n asFolder)) :
    (∃ q, w.Leads (Path.wholeWay folder) q) ∨ ∃ place names, w.Gap folder place names := by
  obtain ⟨front, hbegins, hsteps, hleads, hmissing⟩ := exists_steps_of_free hpath hp hfree
  by_cases hlength : (Path.steps folder).length ≤ front.length
  · obtain ⟨back, rfl⟩ := List.prefix_of_prefix_length_le (List.prefix_append _ _)
      ((List.prefix_append front [n]).trans hbegins) hlength
    exact .inl (hleads.exists_front fun m hm => hsteps m (by simp [hm]))
  · obtain ⟨back, hback⟩ : front ++ [n] <+: Path.steps folder :=
      List.prefix_of_prefix_length_le hbegins (List.prefix_append _ _) (by simp; omega)
    have hn := properName_of_resolve hfree
    have hdown := hfirm.no_dots hback.symm (hleads.aimFrom_missing hn hmissing) hmissing
    have hall : Path.steps folder = front ++ (n :: back) := by rw [← hback, List.append_assoc]; rfl
    refine .inr ⟨place, n :: back, ⟨front, hall, hleads⟩, ?_, n, back, rfl, hmissing⟩
    refine List.forall_mem_cons.mpr ⟨hn, fun m hm => ?_⟩
    have hmem : m ∈ Path.steps folder := by simp [hall, hm]
    exact Path.properName_of_mem_steps hmem fun heq => hdown (heq ▸ hm)

/-- Where a path leads to a folder, all that it leads through is there. -/
theorem Leads.face?_ne_none (h : w.Leads (Path.wholeWay path) place) {q : List String}
    (hq : w.terrain.LeadsThrough path q) : w.top.face? q ≠ none := by
  obtain ⟨front, ⟨back, hback⟩, haim⟩ := hq
  rw [Path.wholeWay, ← hback] at h
  obtain ⟨p, hp⟩ := h.exists_front fun n hn => by
    have hmem : n ∈ Path.steps path := by simp [← hback, hn]
    exact (List.mem_filter.mp hmem).2
  obtain rfl := Option.some.inj (haim.symm.trans hp.aimFrom)
  rw [hp.folder]
  simp

/-- In a folder that is there, a free name that something can be made at is the missing thing. -/
theorem Leads.face?_eq_none {folder p n : String} {asFolder : Bool} {q : List String}
    (h : w.Leads (Path.wholeWay folder) q) (hname : ProperName name)
    (hp : p ∈ Path.ancestors (Path.join folder name))
    (hfree : w.resolve false p = .ok (.free place n asFolder)) :
    w.top.face? (q ++ [name]) = none := by
  have hparts := Path.parts_proper hname
  obtain ⟨front, hbegins, -, hleads, hmissing⟩ :=
    exists_steps_of_free (by simpa [hparts] using hname) hp hfree
  rw [hparts] at hbegins
  rcases List.prefix_concat_iff.mp hbegins with heq | hway
  · obtain ⟨rfl, heq⟩ := List.append_inj' heq rfl
    obtain rfl : n = name := by simpa using heq
    obtain rfl : place = q := Option.some.inj (hleads.aimFrom.symm.trans h.aimFrom)
    exact hmissing
  -- All on the way to the folder is there.
  · have haim := hleads.aimFrom_missing (properName_of_resolve hfree) hmissing
    exact absurd hmissing (h.face?_ne_none ⟨_, hway, haim⟩)

namespace Gap

variable (h : w.Gap path place names)
include h

theorem nonempty : names ≠ [] := by
  obtain ⟨n, more, rfl, -⟩ := h.missing
  simp

theorem folder : w.top.face? place = some .folder := by
  obtain ⟨front, -, hleads⟩ := h.way
  exact hleads.folder

/-- All on the way down is missing. -/
theorem face?_eq_none (hfront : front <+: names) (hne : front ≠ []) (more : List String) :
    w.top.face? (place ++ front ++ more) = none := by
  obtain ⟨n, rest, rfl, hmissing⟩ := h.missing
  obtain ⟨m, inner, rfl⟩ := List.exists_cons_of_ne_nil hne
  obtain ⟨rfl, -⟩ := List.cons_prefix_cons.mp hfront
  rw [List.append_cons, List.append_assoc]
  exact face?_below_missing hmissing (inner ++ more)

/-- The way down is where it points. -/
theorem exists_aimFrom : ∃ before, Path.steps path = before ++ names ∧ ∀ front, front <+: names →
    w.terrain.aimFrom true maxLinks (w.terrain.start path) (before ++ front)
      = some (place ++ front) := by
  obtain ⟨before, hsteps, hleads⟩ := h.way
  refine ⟨before, hsteps, fun front hfront => ?_⟩
  by_cases hne : front = []
  · rw [hne, List.append_nil, List.append_nil]
    exact hleads.aimFrom
  · rw [Terrain.aimFrom_append hne fun n hn => h.passable n (hfront.subset hn), hleads.aimFrom]
    · rfl
    · intro q hq inner hinner hinnerNe
      obtain rfl := Option.some.inj (hleads.aimFrom.symm.trans hq)
      have hgone := h.face?_eq_none (hinner.trans hfront) hinnerNe []
      rw [List.append_nil] at hgone
      show w.link? (place ++ inner) = none
      unfold link?
      rw [hgone]

theorem leadsThrough (hfront : front <+: names) :
    w.terrain.LeadsThrough path (place ++ front) := by
  obtain ⟨before, hsteps, haim⟩ := h.exists_aimFrom
  refine ⟨before ++ front, ?_, haim front hfront⟩
  rw [hsteps]
  exact (List.prefix_append_right_inj before).mpr hfront

theorem aim : w.terrain.aim true path = some (place ++ names) := by
  obtain ⟨before, hsteps, haim⟩ := h.exists_aimFrom
  rw [Terrain.aim_eq_steps, hsteps]
  exact haim names (List.prefix_refl _)

theorem isOpenWay (more : List String) : IsOpenWay w.top place (names ++ more) := by
  intro front hfront
  by_cases hne : front = []
  · rw [hne, List.append_nil]
    exact .inr h.folder
  · refine .inl ?_
    rcases List.prefix_or_prefix_of_prefix hfront (List.prefix_append names more) with
      hinner | ⟨rest, rfl⟩
    · simpa using h.face?_eq_none hinner hne []
    · rw [← List.append_assoc]
      exact h.face?_eq_none (List.prefix_refl _) h.nonempty rest

/-- A name in the folder is further down the way. -/
theorem descent (hname : ProperName name) (hnul : '\x00' ∉ (Path.join path name).toList) :
    w.Descent place (names ++ [name]) (Path.join path name) := by
  obtain ⟨before, hsteps, hleads⟩ := h.way
  have hparts := Path.parts_proper hname
  have hjoin := Path.descends_join name (by simpa [hparts] using hname) path
  refine ⟨⟨_, hleads, ⟨hjoin.absolute, ?_, ?_, by simp, ?_⟩⟩, hnul⟩
  · rw [hjoin.steps, hparts, Path.wholeWay, hsteps, List.append_assoc]
  · obtain ⟨front, hfront⟩ := hjoin.ending
    refine ⟨front, ?_⟩
    rw [hfront, hparts, List.getLast?_concat]
    rfl
  · rw [List.forall_mem_append, List.forall_mem_singleton]
    exact ⟨h.passable, hname⟩

/-- Once all the way down has been made the path leads to a folder. -/
theorem leads_of_opensWay {u : Workspace} (hu : OpensWay place names w u)
    (hshort : ∀ n ∈ names, IsShort n) :
    u.Leads (Path.wholeWay path) (place ++ names) := by
  obtain ⟨before, hsteps, hleads⟩ := h.way
  obtain ⟨children, hwalk⟩ := hleads.stays hu.alters.terrain hu.folders
  obtain ⟨fuel, hgo⟩ := exists_walk_append hwalk
  obtain ⟨kids, hkids⟩ := face?_eq_folder_iff.mp (hu.folder names (List.prefix_refl _))
  have hall : names.filter Terrain.isStep = names := by
    refine List.filter_eq_self.mpr fun n hn => ?_
    have hname := h.passable n hn
    simp [Terrain.isStep, hname.ne_empty, hname.ne_dot]
  have hdown : u.walk true fuel place (names ++ [])
      = u.walk true fuel (place ++ names.filter Terrain.isStep) [] :=
    walk_through (fun n hn => ⟨h.passable n (List.mem_filter.mp hn).1,
      hshort n (List.mem_filter.mp hn).1⟩) (by rwa [hall]) true []
  refine ⟨kids, ?_⟩
  rw [Path.wholeWay, hsteps, hgo true names h.nonempty]
  rw [List.append_nil, hall, walk, hkids] at hdown
  exact hdown

end Gap

end Workspace

/-! ## Open ways -/

section

variable {w u v : Workspace} {place names : List String} {name : String}

theorem Workspace.eq_of_face? (hterrain : v.terrain = u.terrain) (hu : u.top.Tidy)
    (hv : v.top.Tidy) (hface : ∀ q, v.top.face? q = u.top.face? q) : v = u := by
  obtain ⟨top, here⟩ := u
  obtain ⟨top', here'⟩ := v
  obtain rfl : here' = here := congrArg Terrain.here hterrain
  obtain rfl : top' = top := Entry.eq_of_face? hv hu hface
  rfl

/-- **There is one way to make the folders that names lead through.** -/
theorem OpensWay.unique (hu : OpensWay place names w u) (hv : OpensWay place names w v)
    (htidy : w.top.Tidy) : v = u := by
  refine Workspace.eq_of_face? (hv.alters.terrain.trans hu.alters.terrain.symm)
    (hu.alters.tidy htidy) (hv.alters.tidy htidy) fun q => ?_
  by_cases hq : ∃ front, front <+: names ∧ q = place ++ front
  · obtain ⟨front, hfront, rfl⟩ := hq
    rw [hu.folder front hfront, hv.folder front hfront]
  · have hsame : ∀ {x : Workspace}, OpensWay place names w x → x.top.face? q = w.top.face? q :=
      fun hx => (hx.alters.face q id).resolve_right
        fun ⟨⟨front, hfront, _, heq⟩, _⟩ => hq ⟨front, hfront, heq⟩
    rw [hsame hu, hsame hv]

/-- Names behind one that is too long make no difference. -/
theorem shortNames_append_eq (h : ¬ ∀ n ∈ names, IsShort n) (more : List String) :
    shortNames (names ++ more) = shortNames names := by
  obtain ⟨before, long, behind, rfl, hbefore, hlong⟩ := exists_first_long h
  rw [List.append_assoc, List.cons_append, shortNames_append_long hbefore hlong,
    shortNames_append_long hbefore hlong]

theorem shortNames_prefix_append (names more : List String) :
    shortNames names <+: shortNames (names ++ more) := by
  by_cases hshort : ∀ n ∈ names, IsShort n
  · rw [shortNames_eq_self hshort]
    exact shortNames_append_of_short hshort more
  · simp [shortNames_append_eq hshort]

/-- **Where the beginning of a way has been made**, making the folder of the path comes to the
same. -/
theorem FileAction.runOn_makeFolders_opened {path : String}
    (h : w.Descent place (names ++ [name]) path) (hopen : IsOpenWay w.top place (names ++ [name]))
    (htidy : w.top.Tidy) (hbytes : path.utf8ByteSize ≤ maxPathBytes)
    (hu : OpensWay place (shortNames names) w u) :
    (makeFolders path).runOn u = (makeFolders path).runOn w
      ∧ ((¬ ∀ n ∈ names, IsShort n) → (makeFolders path).runOn u = (.error .nameTooLong, u)) := by
  obtain ⟨w', hw, hmade⟩ := exists_makeFolders h hopen hbytes
  obtain ⟨u', hmake, hagain⟩ :=
    exists_makeFolders (h.stays hu.alters.terrain hu.folders) (hu.isOpenWay hopen) hbytes
  have hall := hu.trans hagain (shortNames_prefix_append names [name])
  obtain rfl := hmade.unique hall htidy
  refine ⟨hmake.trans hw.symm, fun hlong => ?_⟩
  rw [shortNames_append_eq hlong] at hall
  obtain rfl := hu.unique hall htidy
  rw [hmake, if_neg fun hshort => hlong fun n hn => hshort n (by simp [hn])]

end

end CanvasFlutter
