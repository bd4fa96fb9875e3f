import CanvasFlutter.Proofs.Workspace.Outcome

namespace CanvasFlutter

/-!
# `CanvasFlutter.Proofs.Workspace.Descent` — going down from a folder that is there

A path may begin with links and parents, and then go down by names alone. Once its beginning leads
to a folder, all that decides what the path leads to is what stands below that folder.

## Contents
- **Ways.** `Path.Way`, `Workspace.Leads`: the beginning of a path leads to a folder.
- **Descents.** `Path.Descends`: a path goes on with names; its parent and joined paths do so too.
- **Resolution.** `Descent.resolve_taken`, `resolve_free`, `resolve_missing`, `resolve_long`.
-/

open Entry

/-! ## Ways -/

/-- A name that a file system takes. -/
def IsShort (name : String) : Prop := name.utf8ByteSize ≤ maxNameBytes

instance (name : String) : Decidable (IsShort name) :=
  inferInstanceAs (Decidable (name.utf8ByteSize ≤ maxNameBytes))

/-- The beginning of a path: where it starts and the steps that it takes first. -/
structure Path.Way where
  absolute : Bool
  steps : List String

/-- All of a path as a way. -/
def Path.wholeWay (path : String) : Way := ⟨isAbsolute path, steps path⟩

namespace Workspace

variable {w w' : Workspace} {follow : Bool} {fuel : Nat} {place q names more : List String}
variable {children : List (String × Entry)} {way : Path.Way}

/-- A way leads to the folder at a place. -/
def Leads (w : Workspace) (way : Path.Way) (place : List String) : Prop :=
  ∃ children, w.walk true maxLinks (if way.absolute then [] else w.here) way.steps
    = .ok (.taken place (.folder children))

theorem Leads.folder (h : w.Leads way place) : w.top.face? place = some .folder := by
  obtain ⟨children, hwalk⟩ := h
  exact face?_eq_folder_iff.mpr ⟨children, holds_of_walk hwalk⟩

/-- A way leads to a folder still if links and folders have stayed. -/
theorem Leads.stays (h : w.Leads way place) (hterrain : w'.terrain = w.terrain)
    (hfolders : ∀ q, w.top.face? q = some .folder → w'.top.face? q = some .folder) :
    w'.Leads way place := by
  obtain ⟨children, hwalk⟩ := h
  obtain ⟨children', hfolder⟩ := face?_eq_folder_iff.mp (hfolders _ (Leads.folder ⟨children, hwalk⟩))
  have hhere : w'.here = w.here := congrArg Terrain.here hterrain
  refine ⟨children', ?_⟩
  rw [hhere]
  exact walk_of_folders hterrain hfolders hwalk hfolder

theorem walk_blanks (hfolder : w.top.get? place = some (.folder children))
    (h : ∀ n ∈ names, n = "" ∨ n = ".") (more : List String) :
    w.walk follow fuel place (names ++ more) = w.walk follow fuel place more := by
  induction names with
  | nil => rfl
  | cons n names ih =>
      rw [List.cons_append, walk_blank hfolder (h n (by simp))]
      exact ih fun m hm => h m (by simp [hm])

/-- In front of the first step nothing counts. -/
theorem exists_walk_step {name : String} (hfolder : w.top.get? place = some (.folder children))
    (h : names.filter Terrain.isStep = name :: more) :
    ∃ rest, rest.filter Terrain.isStep = more
      ∧ w.walk follow fuel place names = w.walk follow fuel place (name :: rest) := by
  obtain ⟨blanks, rest, rfl, hblanks, -, hrest⟩ := List.filter_eq_cons_iff.mp h
  refine ⟨rest, hrest, walk_blanks hfolder (fun n hn => ?_) _⟩
  exact Terrain.isStep_eq_false_iff.mp (by simpa using hblanks n hn)

/-- Names that lead to a folder lead there whatever stands between the steps. -/
theorem walk_congr {names' : List String}
    (hsteps : names.filter Terrain.isStep = names'.filter Terrain.isStep)
    (h : w.walk true fuel place names = .ok (.taken q (.folder children))) :
    w.walk true fuel place names' = .ok (.taken q (.folder children)) := by
  fun_induction Workspace.walk w true fuel place names generalizing names' with
  | case1 fuel place entry hentry =>
      obtain ⟨rfl, rfl⟩ := Spot.taken.inj (Except.ok.inj h)
      have hblank : ∀ n ∈ names', n = "" ∨ n = "." := fun n hn =>
        Terrain.isStep_eq_false_iff.mp (by simpa using List.filter_eq_nil_iff.mp hsteps.symm n hn)
      have hall : w.walk true fuel place (names' ++ []) = w.walk true fuel place [] :=
        walk_blanks hentry hblank []
      rw [List.append_nil] at hall
      rw [hall, walk_nil hentry]
  | case3 fuel place name rest kids hhere hblank ih =>
      rw [Terrain.filter_isStep_of_blank hblank] at hsteps
      exact ih hsteps h
  | case4 fuel place rest kids hhere hblank ih =>
      obtain ⟨rest', hrest, hwalk⟩ := exists_walk_step hhere
        (hsteps.symm.trans (Terrain.filter_isStep_of_step hblank _))
      rw [hwalk, walk_up hhere]
      exact ih hrest.symm h
  | case10 place name rest kids hhere hblank hup hlong target hlink hlast fuel next =>
      rename_i ih
      obtain ⟨rest', hrest, hwalk⟩ := exists_walk_step hhere
        (hsteps.symm.trans (Terrain.filter_isStep_of_step hblank _))
      rw [hwalk, walk_link hhere hblank hup hlong hlink (by simp)]
      exact ih (by rw [List.filter_append, List.filter_append, hrest]) h
  | case11 fuel place name rest kids hhere hblank hup hlong entry hnolink hlookup ih =>
      obtain ⟨rest', hrest, hwalk⟩ := exists_walk_step hhere
        (hsteps.symm.trans (Terrain.filter_isStep_of_step hblank _))
      rw [hwalk, walk_child hhere hblank hup hlong hlookup hnolink]
      exact ih hrest.symm h
  | _ => simp_all

/-- Behind names that lead to a folder a walk goes on from there. -/
theorem exists_walk_append (h : w.walk true fuel place names = .ok (.taken q (.folder children))) :
    ∃ fuel', ∀ follow more, more ≠ [] →
      w.walk follow fuel place (names ++ more) = w.walk follow fuel' q more := by
  fun_induction Workspace.walk w true fuel place names with
  | case1 fuel place entry hentry =>
      obtain ⟨rfl, rfl⟩ := Spot.taken.inj (Except.ok.inj h)
      exact ⟨fuel, fun _ _ _ => rfl⟩
  | case3 fuel place name rest kids hhere hblank ih =>
      obtain ⟨fuel', hrest⟩ := ih h
      refine ⟨fuel', fun follow more hmore => ?_⟩
      rw [List.cons_append, walk_blank hhere hblank]
      exact hrest follow more hmore
  | case4 fuel place rest kids hhere hblank ih =>
      obtain ⟨fuel', hrest⟩ := ih h
      refine ⟨fuel', fun follow more hmore => ?_⟩
      rw [List.cons_append, walk_up hhere]
      exact hrest follow more hmore
  | case10 place name rest kids hhere hblank hup hlong target hlink hlast fuel next ih =>
      obtain ⟨fuel', hrest⟩ := ih h
      refine ⟨fuel', fun follow more hmore => ?_⟩
      rw [List.cons_append, walk_link hhere hblank hup hlong hlink (by simp [hmore]),
        ← List.append_assoc]
      exact hrest follow more hmore
  | case11 fuel place name rest kids hhere hblank hup hlong entry hnolink hlookup ih =>
      obtain ⟨fuel', hrest⟩ := ih h
      refine ⟨fuel', fun follow more hmore => ?_⟩
      rw [List.cons_append, walk_child hhere hblank hup hlong hlookup hnolink]
      exact hrest follow more hmore
  | _ => simp_all

/-- In front of a step a walk that leads somewhere is in a folder. -/
theorem exists_walk_front {spot : Spot} (hmore : more.filter Terrain.isStep ≠ [])
    (h : w.walk follow fuel place (names ++ more) = .ok spot) :
    ∃ q children, w.walk true fuel place names = .ok (.taken q (.folder children)) := by
  have hall : ∀ rest : List String, ¬ (rest ++ more).all (· = "") = true := by
    intro rest
    obtain ⟨n, hn⟩ := List.exists_mem_of_ne_nil _ hmore
    obtain ⟨hmem, hstep⟩ := List.mem_filter.mp hn
    have hne : n ≠ "" := fun heq => by simp [heq, Terrain.isStep] at hstep
    rw [List.all_eq_true]
    exact fun hblank => hne (by simpa using hblank n (List.mem_append_right rest hmem))
  have hgo : ∀ rest : List String, ¬ ((rest ++ more).isEmpty && !follow) = true := by
    have hne : more ≠ [] := by
      rintro rfl
      exact hmore rfl
    simp [hne]
  fun_induction Workspace.walk w true fuel place names with
  | case1 fuel place entry hentry =>
      obtain ⟨n, rest, rfl⟩ := List.exists_cons_of_ne_nil (l := more) (by rintro rfl; exact hmore rfl)
      cases entry with
      | folder children => exact ⟨place, children, rfl⟩
      | _ =>
          rw [List.nil_append, walk_leaf hentry (by simp)] at h
          cases h
  | case2 fuel place hnone =>
      rw [List.nil_append, walk_nowhere hnone] at h
      cases h
  | case3 fuel place name rest kids hhere hblank ih =>
      rw [List.cons_append, walk_blank hhere hblank] at h
      exact ih h
  | case4 fuel place rest kids hhere hblank ih =>
      rw [List.cons_append, walk_up hhere] at h
      exact ih h
  | case6 fuel place name rest kids hhere hblank hup hlong hnone hrest =>
      rw [List.cons_append, walk_missing hhere hblank hup hlong hnone (hall rest)] at h
      cases h
  | case7 fuel place name rest kids hhere hblank hup hlong hnone hrest =>
      rw [List.cons_append, walk_missing hhere hblank hup hlong hnone (hall rest)] at h
      cases h
  | case9 place name rest kids hhere hblank hup hlong target hlink hlast =>
      rw [List.cons_append, walk_linkless hhere hblank hup hlong hlink (hgo rest)] at h
      cases h
  | case10 place name rest kids hhere hblank hup hlong target hlink hlast fuel next ih =>
      rw [List.cons_append, walk_link hhere hblank hup hlong hlink (hgo rest),
        ← List.append_assoc] at h
      exact ih h
  | case11 fuel place name rest kids hhere hblank hup hlong entry hnolink hlookup ih =>
      rw [List.cons_append, walk_child hhere hblank hup hlong hlookup hnolink] at h
      exact ih h
  | case5 fuel place name rest kids hhere hblank hup hlong =>
      rw [List.cons_append, walk_long hhere hblank hup hlong] at h
      cases h
  | case8 fuel place name rest kids hhere hblank hup hlong target hlink hlast => simp at hlast
  | case12 fuel place name rest entry hleaf hentry =>
      rw [List.cons_append, walk_leaf hentry hleaf] at h
      cases h
  | case13 fuel place name rest hnone =>
      rw [walk_nowhere hnone] at h
      cases h

/-- Names that lead down to a folder are gone through one by one. -/
theorem walk_through (hnames : ∀ n ∈ names.filter Terrain.isStep, ProperName n ∧ IsShort n)
    (hfolder : w.top.get? (place ++ names.filter Terrain.isStep) = some (.folder children))
    (follow : Bool) (more : List String) :
    w.walk follow fuel place (names ++ more)
      = w.walk follow fuel (place ++ names.filter Terrain.isStep) more := by
  induction names generalizing place with
  | nil => simp
  | cons name rest ih =>
      have hplace : w.top.face? place = some .folder := by
        cases hsteps : (name :: rest).filter Terrain.isStep with
        | nil =>
            rw [hsteps, List.append_nil] at hfolder
            exact face?_eq_folder_iff.mpr ⟨_, hfolder⟩
        | cons n steps =>
            rw [hsteps] at hfolder
            have hbelow : w.top.face? (place ++ n :: steps) ≠ none := by
              rw [face?, hfolder]
              simp
            exact face?_of_below hbelow
      obtain ⟨kids, hkids⟩ := face?_eq_folder_iff.mp hplace
      by_cases hblank : name = "" ∨ name = "."
      · rw [List.cons_append, walk_blank hkids hblank]
        rw [Terrain.filter_isStep_of_blank hblank] at hnames hfolder ⊢
        exact ih hnames hfolder
      · rw [Terrain.filter_isStep_of_step hblank] at hnames hfolder ⊢
        obtain ⟨hname, hshort⟩ := hnames name (by simp)
        have hbelow : w.top.face? (place ++ [name]) = some .folder := by
          rw [List.append_cons] at hfolder
          cases hrest : rest.filter Terrain.isStep with
          | nil =>
              rw [hrest, List.append_nil] at hfolder
              exact face?_eq_folder_iff.mpr ⟨_, hfolder⟩
          | cons n steps =>
              rw [hrest] at hfolder
              have hstays : w.top.face? (place ++ [name] ++ n :: steps) ≠ none := by
                rw [face?, hfolder]
                simp
              exact face?_of_below hstays
        obtain ⟨inner, hinner⟩ := face?_eq_folder_iff.mp hbelow
        rw [get?_child hkids] at hinner
        rw [List.cons_append, walk_child hkids hblank hname.ne_dots (Nat.not_lt.mpr hshort) hinner
          (by simp)]
        rw [List.append_cons place name] at hfolder
        rw [ih (fun n hn => hnames n (by simp [hn])) hfolder, List.append_assoc]
        rfl

end Workspace

/-! ## Descents -/

namespace Path

variable {way : Way} {names : List String} {path folder : String}

/-- A path goes on behind a way with these names and ends in the last of them. -/
structure Descends (way : Way) (names : List String) (path : String) : Prop where
  absolute : isAbsolute path = way.absolute
  steps : steps path = way.steps ++ names
  ending : ∃ before, parts path = before ++ names.getLast?.toList
  nonempty : names ≠ []
  passable : ∀ n ∈ names, ProperName n

theorem length_parts_le (path : String) : (parts path).length ≤ path.length + 1 := by
  have hsplit : ∀ t : Text, (t.splitOn '/').length ≤ t.length + 1 := by
    intro t
    induction t with
    | nil => simp
    | cons c t ih =>
        rw [List.splitOn_cons_eq_if_modifyHead]
        split
        · simpa using ih
        · simp only [List.length_modifyHead, List.length_cons]
          omega
  rw [parts, List.length_map, ← String.length_toList]
  exact hsplit _

theorem utf8ByteSize_le_of_prefix {path path' : String} (h : path.toList <+: path'.toList) :
    path.utf8ByteSize ≤ path'.utf8ByteSize := by
  obtain ⟨more, hmore⟩ := h
  have heq : path' = path ++ String.ofList more := by
    rw [← String.toList_inj, String.toList_append, String.toList_ofList, hmore]
  rw [heq, String.utf8ByteSize_append]
  exact Nat.le_add_right _ _

theorem length_le_utf8ByteSize (path : String) : path.length ≤ path.utf8ByteSize := by
  have hlist : ∀ t : Text, t.length ≤ (String.ofList t).utf8ByteSize := by
    intro t
    induction t with
    | nil => simp
    | cons c t ih =>
        have heq : String.ofList (c :: t) = String.singleton c ++ String.ofList t := by
          rw [← String.toList_inj]
          simp
        have hpos := c.utf8Size_pos
        rw [heq, String.utf8ByteSize_append, String.utf8ByteSize_singleton, List.length_cons]
        omega
  have hself := hlist path.toList
  rwa [String.ofList_toList, String.length_toList] at hself

/-- A path within a folder goes down from there. -/
theorem descends_join (path : String) (hpath : ∀ n ∈ parts path, ProperName n) (folder : String) :
    Descends (wholeWay folder) (parts path) (join folder path) := by
  obtain ⟨front, hparts, -, habsolute⟩ :=
    exists_parts_join folder (not_isAbsolute_of_proper hpath)
  refine ⟨habsolute, steps_join folder hpath, ?_, parts_ne_nil path, hpath⟩
  obtain ⟨before, last, hlast⟩ := (List.eq_nil_or_concat (parts path)).resolve_left (parts_ne_nil path)
  refine ⟨front ++ before, ?_⟩
  rw [hparts, hlast]
  simp

/-- A path within a folder that a path goes down to goes down further. -/
theorem Descends.join (h : Descends way names folder) (path : String)
    (hpath : ∀ n ∈ parts path, ProperName n) :
    Descends way (names ++ parts path) (join folder path) := by
  have hjoin := descends_join path hpath folder
  refine ⟨hjoin.absolute.trans h.absolute, ?_, ?_, by simp [h.nonempty], ?_⟩
  · rw [hjoin.steps, wholeWay, h.steps, List.append_assoc]
  · obtain ⟨before, hbefore⟩ := hjoin.ending
    refine ⟨before, ?_⟩
    rw [hbefore, List.getLast?_append, List.getLast?_eq_some_getLast (parts_ne_nil path)]
    rfl
  · exact fun n hn => (List.mem_append.mp hn).elim (h.passable n) (hpath n)

/-- A path is one name, or what stands before its last slash and one name. -/
theorem exists_last_name (path : String) : (∃ name, parts path = [name] ∧ path = name)
    ∨ ∃ (front : Text) (name : String), path = String.ofList (front ++ '/' :: name.toList)
      ∧ '/' ∉ name.toList ∧ parts path = parts (String.ofList front) ++ [name] := by
  by_cases hslash : '/' ∈ path.toList
  · obtain ⟨last, front, hsplit, hlast⟩ := List.eq_append_cons_of_mem (List.mem_reverse.mpr hslash)
    have hpath : path.toList = front.reverse ++ '/' :: last.reverse := by
      rw [← List.reverse_reverse path.toList, hsplit]
      simp
    have hname : '/' ∉ last.reverse := by simpa using hlast
    refine .inr ⟨front.reverse, String.ofList last.reverse, ?_, by simpa using hname, ?_⟩
    · rw [← String.toList_inj, hpath, String.toList_ofList, String.toList_ofList]
    · rw [parts, hpath, List.splitOn_append_cons_self, List.map_append,
        List.splitOn_eq_singleton hname, parts, String.toList_ofList]
      rfl
  · refine .inl ⟨path, ?_, rfl⟩
    rw [parts, List.splitOn_eq_singleton hslash, List.map_singleton, String.ofList_toList]

/-- The ending of a path that has steps and whose ending is dropped is its last step. -/
theorem exists_ending_dropEnding (t : Text) (h : steps (String.ofList t.reverse) ≠ []) :
    ∃ before, parts (String.ofList (dropEnding t).reverse)
      = before ++ (steps (String.ofList t.reverse)).getLast?.toList := by
  obtain ⟨hsteps, -⟩ := steps_dropEnding t
  rw [← hsteps] at h ⊢
  have hending : ∀ c rest, dropEnding t = c :: rest →
      (c = '/' → rest = []) ∧ ¬ (c = '.' ∧ rest.head? = some '/') := fun _ _ => dropEnding_eq_cons
  generalize dropEnding t = last at h hending ⊢
  -- The last name is a step, so it is the last one.
  have hlast : ∀ before name, parts (String.ofList last.reverse) = before ++ [name] →
      Terrain.isStep name = true → parts (String.ofList last.reverse)
        = before ++ (steps (String.ofList last.reverse)).getLast?.toList := by
    intro before name hparts hstep
    rw [steps, hparts, List.filter_append, List.filter_cons, if_pos hstep, List.filter_nil,
      List.getLast?_concat]
    rfl
  cases last with
  | nil => exact absurd steps_nothing.1 h
  | cons c rest =>
      obtain ⟨hslash, hdot⟩ := hending c rest rfl
      have hc : c ≠ '/' := by
        intro heq
        rw [hslash heq, heq] at h
        exact h (by decide)
      rcases exists_last_name (String.ofList (c :: rest).reverse) with
        ⟨name, hparts, hname⟩ | ⟨front, name, hpath, hname, hparts⟩
      · refine ⟨[], hlast [] name hparts ?_⟩
        cases hstep : Terrain.isStep name with
        | true => rfl
        | false =>
            rw [steps, hparts, List.filter_cons, hstep] at h
            exact absurd rfl h
      · refine ⟨_, hlast _ name hparts ?_⟩
        have hlist : c :: rest = name.toList.reverse ++ '/' :: front.reverse := by
          rw [← String.toList_inj, String.toList_ofList, String.toList_ofList] at hpath
          rw [← List.reverse_reverse (c :: rest), hpath]
          simp
        rw [← Bool.not_eq_false, Terrain.isStep_eq_false_iff]
        rintro (rfl | rfl)
        · exact hc (List.cons.inj hlist).1
        · obtain ⟨rfl, rfl⟩ := List.cons.inj hlist
          exact hdot ⟨rfl, rfl⟩

theorem dropEnding_suffix (t : Text) : dropEnding t <:+ t := by
  fun_induction dropEnding t with
  | case1 => exact List.suffix_refl _
  | case2 => exact List.suffix_refl _
  | case3 rest hne ih => exact ih.trans (List.suffix_cons _ _)
  | case4 c rest hslash hdot ih => exact ih.trans (List.suffix_cons _ _)
  | case5 c rest hslash hdot => exact List.suffix_refl _

/-- **A path that has steps has a parent** with all of them but the last. -/
theorem exists_parent (path : String) (h : steps path ≠ []) : ∃ parent last, parent? path = some parent
    ∧ steps path = steps parent ++ [last] ∧ isAbsolute parent = isAbsolute path
    ∧ parent.toList <+: path.toList
    ∧ (steps parent ≠ [] → ∃ before, parts parent = before ++ (steps parent).getLast?.toList) := by
  obtain ⟨hsteps, -⟩ := steps_dropEnding path.toList.reverse
  rw [List.reverse_reverse, String.ofList_toList] at hsteps
  obtain ⟨rest, hparent, hsuffix⟩ : ∃ rest,
      parent? path = some (String.ofList (dropEnding rest).reverse)
        ∧ rest <:+ path.toList.reverse := by
    rw [parent?]
    split
    · next heq => exact absurd (by rw [← hsteps, heq]; decide) h
    · next heq => exact absurd (by rw [← hsteps, heq]; decide) h
    · exact ⟨_, rfl, (List.dropWhile_suffix _).trans (dropEnding_suffix _)⟩
  obtain ⟨⟨last, hlast, hone, hne⟩, habsolute⟩ := steps_parent hparent
  obtain ⟨name, hname⟩ := List.length_eq_one_iff.mp
    (Nat.le_antisymm hone (List.length_pos_iff.mpr (hne h)))
  rw [hname] at hlast
  refine ⟨_, name, hparent, hlast, habsolute, ?_, fun hfront => ?_⟩
  · rw [String.toList_ofList]
    have hprefix := List.reverse_prefix.mpr ((dropEnding_suffix rest).trans hsuffix)
    rwa [List.reverse_reverse] at hprefix
  · have hrest := (steps_dropEnding rest).1
    rw [hrest] at hfront ⊢
    exact exists_ending_dropEnding rest hfront

/-- **The parent of a path that goes down** goes down by all names but the last. -/
theorem Descends.exists_parent {last : String} (h : Descends way (names ++ [last]) path)
    (hne : names ≠ []) : ∃ parent, parent? path = some parent ∧ Descends way names parent
      ∧ parent.toList <+: path.toList := by
  have hsteps := h.steps
  rw [← List.append_assoc] at hsteps
  obtain ⟨parent, name, hparent, hlast, habsolute, hprefix, hending⟩ :=
    Path.exists_parent path (by simp [hsteps])
  obtain ⟨hfront, -⟩ := List.append_inj' (hlast.symm.trans hsteps) rfl
  have hfrontNe : Path.steps parent ≠ [] := by simp [hfront, hne]
  refine ⟨parent, hparent, ⟨habsolute.trans h.absolute, hfront, ?_, hne,
    fun n hn => h.passable n (by simp [hn])⟩, hprefix⟩
  obtain ⟨before, hbefore⟩ := hending hfrontNe
  refine ⟨before, ?_⟩
  rw [hbefore, hfront, List.getLast?_append, List.getLast?_eq_some_getLast hne]
  rfl

/-- The parent of a name in a folder begins as the folder does. -/
theorem exists_parent_join {name : String} (hname : ProperName name) (folder : String) :
    ∃ parent, parent? (join folder name) = some parent ∧ wholeWay parent = wholeWay folder := by
  have hparts := parts_proper hname
  have hjoin := descends_join name (by simpa [hparts] using hname) folder
  have hsteps := hjoin.steps
  rw [hparts] at hsteps
  obtain ⟨parent, last, hparent, hlast, habsolute, -, -⟩ :=
    Path.exists_parent (join folder name) (by simp [hsteps])
  obtain ⟨hfront, -⟩ := List.append_inj' (hlast.symm.trans hsteps) rfl
  refine ⟨parent, hparent, ?_⟩
  rw [wholeWay, hfront, habsolute, hjoin.absolute]

end Path

/-! ## Resolution -/

namespace Workspace

/-- If a path within a folder leads somewhere, the path of the folder leads to a folder. -/
theorem exists_leads_of_join {w : Workspace} {folder path : String} {spot : Spot}
    (hpath : ∀ n ∈ Path.parts path, ProperName n)
    (h : w.resolve true (Path.join folder path) = .ok spot) :
    ∃ q, w.Leads (Path.wholeWay folder) q ∧ w.terrain.aim true folder = some q := by
  obtain ⟨front, hparts, hfront, habsolute⟩ :=
    Path.exists_parts_join folder (Path.not_isAbsolute_of_proper hpath)
  have hsteps : (Path.parts path).filter Terrain.isStep ≠ [] := by
    have hall : (Path.parts path).filter Terrain.isStep = Path.parts path := Path.steps_eq_parts hpath
    rw [hall]
    exact Path.parts_ne_nil path
  have hwalk := walk_of_resolve h
  rw [hparts] at hwalk
  obtain ⟨q, children, hfolder⟩ := exists_walk_front hsteps hwalk
  have hstart : w.start (Path.join folder path) = w.start folder := by
    rw [start, start, habsolute]
  rw [hstart] at hfolder
  refine ⟨q, ⟨children, walk_congr ?_ hfolder⟩, ?_⟩
  · rw [hfront, Path.wholeWay, Path.steps, List.filter_filter]
    simp
  · have haim := aimFrom_of_walk hfolder
    exact (Terrain.aimFrom_congr hfront).symm.trans haim

/-- A path goes down by names from the folder at a place. -/
structure Descent (w : Workspace) (place names : List String) (path : String) : Prop where
  descends : ∃ way, w.Leads way place ∧ Path.Descends way names path
  nul : '\x00' ∉ path.toList

namespace Descent

variable {w w' : Workspace} {place names front rest : List String} {path name : String}
variable {children : List (String × Entry)} {follow : Bool}

theorem nonempty (h : w.Descent place names path) : names ≠ [] := by
  obtain ⟨way, -, hpath⟩ := h.descends
  exact hpath.nonempty

theorem proper (h : w.Descent place names path) : ∀ n ∈ names, ProperName n := by
  obtain ⟨way, -, hpath⟩ := h.descends
  exact hpath.passable

theorem folder (h : w.Descent place names path) : w.top.face? place = some .folder := by
  obtain ⟨way, hleads, -⟩ := h.descends
  exact hleads.folder

theorem path_ne_empty (h : w.Descent place names path) : path ≠ "" := by
  rintro rfl
  obtain ⟨way, -, hpath⟩ := h.descends
  have hsteps := hpath.steps
  have hnone : Path.steps "" = [] := by decide
  rw [hnone] at hsteps
  simp [hpath.nonempty] at hsteps

theorem length_le (h : w.Descent place names path) : names.length ≤ path.length + 1 := by
  obtain ⟨way, -, hpath⟩ := h.descends
  have hsteps := congrArg List.length hpath.steps
  have hfilter := List.length_filter_le Terrain.isStep (Path.parts path)
  have hparts := Path.length_parts_le path
  rw [List.length_append] at hsteps
  rw [Path.steps] at hsteps
  omega

/-- A path goes down still if links and folders have stayed. -/
theorem stays (h : w.Descent place names path) (hterrain : w'.terrain = w.terrain)
    (hfolders : ∀ q, w.top.face? q = some .folder → w'.top.face? q = some .folder) :
    w'.Descent place names path := by
  obtain ⟨way, hleads, hpath⟩ := h.descends
  exact ⟨⟨way, hleads.stays hterrain hfolders, hpath⟩, h.nul⟩

/-- **What a path leads to** is decided from the last folder that it is known to go through. -/
theorem exists_walk (h : w.Descent place (front ++ name :: rest) path)
    (hshort : ∀ n ∈ front, IsShort n)
    (hfolder : w.top.get? (place ++ front) = some (.folder children)) :
    ∃ fuel more, more.filter Terrain.isStep = rest ∧ (rest = [] → more = [])
      ∧ ∀ follow, w.resolve follow path = if maxPathBytes < path.utf8ByteSize then .error .nameTooLong
        else w.walk follow fuel (place ++ front) (name :: more) := by
  obtain ⟨way, ⟨kids, hwalk⟩, hpath⟩ := h.descends
  have hsteps := hpath.steps
  rw [Path.steps, List.filter_eq_append_iff] at hsteps
  obtain ⟨before, behind, hparts, hbefore, hbehind⟩ := hsteps
  obtain ⟨down, last, rfl, hdown, hlast⟩ := List.filter_eq_append_iff.mp hbehind
  obtain ⟨blanks, more, rfl, hblanks, -, hmore⟩ := List.filter_eq_cons_iff.mp hlast
  have hway : before.filter Terrain.isStep = way.steps.filter Terrain.isStep := by
    rw [← hbefore, List.filter_filter]
    simp
  obtain ⟨fuel, hfuel⟩ := exists_walk_append (walk_congr hway.symm hwalk)
  refine ⟨fuel, more, hmore, fun hrest => ?_, fun follow => ?_⟩
  · -- What stands behind the last name of the path would be its ending.
    subst hrest
    obtain ⟨ahead, hending⟩ := hpath.ending
    rw [hparts] at hending
    rcases List.eq_nil_or_concat more with rfl | ⟨more, n, rfl⟩
    · rfl
    · have hn : n = name := by
        rw [List.concat_eq_append, ← List.cons_append, ← List.append_assoc, ← List.append_assoc,
          ← List.append_assoc] at hending
        simpa using (List.append_inj' hending (by simp)).2
      have hstep : Terrain.isStep name = true := by
        have hname := hpath.passable name (by simp)
        simp [Terrain.isStep, hname.ne_empty, hname.ne_dot]
      rw [List.filter_eq_nil_iff] at hmore
      exact absurd (hn ▸ hstep) (hmore n (by simp))
  · have hnul : path.toList.contains '\x00' = false := by simpa using h.nul
    have hempty : path.isEmpty = false := by
      rw [← Bool.not_eq_true, String.isEmpty_iff]
      exact h.path_ne_empty
    rw [resolve, hempty, hnul]
    simp only [Bool.false_eq_true, if_false]
    split
    · rfl
    · have hstart : w.start path = if way.absolute then [] else w.here := by
        rw [start, hpath.absolute]
      have hnames : ∀ n ∈ down.filter Terrain.isStep, ProperName n ∧ IsShort n := fun n hn => by
        rw [hdown] at hn
        exact ⟨hpath.passable n (by simp [hn]), hshort n hn⟩
      rw [hparts, hstart, hfuel follow _ (by simp), walk_through hnames (hdown.symm ▸ hfolder), hdown]
      exact walk_blanks hfolder (fun n hn =>
        Terrain.isStep_eq_false_iff.mp (by simpa using hblanks n hn)) _

/-- The parents of a path that goes down go down too, as far as there are names. -/
theorem exists_ancestors (h : w.Descent place (front ++ [name]) path) (fuel : Nat)
    (hbytes : path.utf8ByteSize ≤ maxPathBytes) :
    ∃ parents, Path.ancestorsFrom (fuel + 1) path = path :: parents ∧ (front ≠ [] →
      ∃ parent, parents = Path.ancestorsFrom fuel parent ∧ w.Descent place front parent
        ∧ parent.utf8ByteSize ≤ maxPathBytes) := by
  obtain ⟨way, hleads, hpath⟩ := h.descends
  rw [Path.ancestorsFrom]
  by_cases hne : front = []
  · cases Path.parent? path with
    | none => exact ⟨[], rfl, fun h => absurd hne h⟩
    | some parent => exact ⟨_, rfl, fun h => absurd hne h⟩
  · obtain ⟨parent, hparent, hdescends, hprefix⟩ := hpath.exists_parent hne
    rw [hparent]
    refine ⟨_, rfl, fun _ => ⟨parent, rfl, ⟨⟨way, hleads, hdescends⟩, fun hmem => ?_⟩, ?_⟩⟩
    · exact h.nul (List.IsPrefix.subset hprefix hmem)
    · exact Nat.le_trans (Path.utf8ByteSize_le_of_prefix hprefix) hbytes

section

variable (h : w.Descent place (front ++ name :: rest) path) (hshort : ∀ n ∈ front, IsShort n)
variable (hfolder : w.top.face? (place ++ front) = some .folder)
include h hshort hfolder

/-- A path of which a folder is missing leads nowhere. -/
theorem resolve_missing (hname : IsShort name) (hbytes : path.utf8ByteSize ≤ maxPathBytes)
    (hnone : w.top.face? (place ++ front ++ [name]) = none) (hrest : rest ≠ []) :
    w.resolve follow path = .error .notFound := by
  obtain ⟨children, hchildren⟩ := face?_eq_folder_iff.mp hfolder
  obtain ⟨fuel, more, hmore, -, hwalk⟩ := h.exists_walk hshort hchildren
  have hproper := h.proper name (by simp)
  have hall : ¬ more.all (· = "") = true := by
    obtain ⟨n, steps, rfl⟩ := List.exists_cons_of_ne_nil hrest
    obtain ⟨blanks, after, rfl, -, hstep, -⟩ := List.filter_eq_cons_iff.mp hmore
    have hn : n ≠ "" := fun heq => by simp [heq, Terrain.isStep] at hstep
    simp [hn]
  rw [face?_eq_none_iff, get?_child hchildren] at hnone
  rw [hwalk, if_neg (Nat.not_lt.mpr hbytes)]
  exact walk_missing hchildren hproper.not_blank hproper.ne_dots (Nat.not_lt.mpr hname) hnone hall

/-- A name that is too long is not even looked up. -/
theorem resolve_long (hname : ¬ IsShort name) (follow : Bool) :
    w.resolve follow path = .error .nameTooLong := by
  obtain ⟨children, hchildren⟩ := face?_eq_folder_iff.mp hfolder
  obtain ⟨fuel, more, -, -, hwalk⟩ := h.exists_walk hshort hchildren
  have hproper := h.proper name (by simp)
  rw [hwalk]
  split
  · rfl
  · exact walk_long hchildren hproper.not_blank hproper.ne_dots (Nat.not_le.mp hname)

end

section

variable (h : w.Descent place (front ++ [name]) path) (hshort : ∀ n ∈ front ++ [name], IsShort n)
variable (hfolder : w.top.face? (place ++ front) = some .folder)
variable (hbytes : path.utf8ByteSize ≤ maxPathBytes)
include h hshort hfolder hbytes

/-- A path whose last name is missing leads to that free name. -/
theorem resolve_free (hnone : w.top.face? (place ++ front ++ [name]) = none) (follow : Bool) :
    w.resolve follow path = .ok (.free (place ++ front) name false) := by
  obtain ⟨children, hchildren⟩ := face?_eq_folder_iff.mp hfolder
  obtain ⟨fuel, more, -, hmore, hwalk⟩ := h.exists_walk (fun n hn => hshort n (by simp [hn])) hchildren
  obtain rfl := hmore rfl
  have hproper := h.proper name (by simp)
  have hname : IsShort name := hshort name (by simp)
  rw [face?_eq_none_iff, get?_child hchildren] at hnone
  rw [hwalk, if_neg (Nat.not_lt.mpr hbytes)]
  exact walk_free hchildren hproper.not_blank hproper.ne_dots (Nat.not_lt.mpr hname) hnone rfl

/-- A path leads to what is there, unless that is a link. -/
theorem resolve_taken {entry : Entry} (hentry : w.top.get? (place ++ front ++ [name]) = some entry)
    (hlink : ∀ target, entry ≠ .link target) (follow : Bool) :
    w.resolve follow path = .ok (.taken (place ++ front ++ [name]) entry) := by
  obtain ⟨children, hchildren⟩ := face?_eq_folder_iff.mp hfolder
  obtain ⟨fuel, more, -, hmore, hwalk⟩ := h.exists_walk (fun n hn => hshort n (by simp [hn])) hchildren
  obtain rfl := hmore rfl
  have hproper := h.proper name (by simp)
  have hname : IsShort name := hshort name (by simp)
  have hlookup := hentry
  rw [get?_child hchildren] at hlookup
  rw [hwalk, if_neg (Nat.not_lt.mpr hbytes),
    walk_child hchildren hproper.not_blank hproper.ne_dots (Nat.not_lt.mpr hname) hlookup hlink]
  exact walk_nil hentry

end

end Descent

end Workspace

end CanvasFlutter
