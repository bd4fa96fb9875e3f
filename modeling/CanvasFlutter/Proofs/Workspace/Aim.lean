import CanvasFlutter.Proofs.Workspace.View

namespace CanvasFlutter

/-!
# `CanvasFlutter.Proofs.Workspace.Aim` — where a path points

A path may lead to nothing, to a file or to a folder, but where it points is decided by links alone.
A workspace keeps its links while files and folders come and go, so every path keeps its aim.

## Contents
- **Aims.** `Terrain`, `Terrain.aim`; `aimFrom_child`, `aimFrom_link` and others: what one name does;
  `aim_of_resolve`: what a path leads to is where it points.
- **Steps.** `Path.steps`: the names that count; `aim_eq_steps`.
- **Joined paths.** `aim_join`: below a folder without links a path points where its names say.
- **Parents.** `LeadsThrough`; `aim_of_mem_ancestors`: the parents of a path are on its way.
-/

open Entry

/-! ## Aims -/

/-- What decides where paths point. -/
structure Terrain where
  /-- The targets of links, by place. -/
  links : List String → Option String
  /-- The folder that relative paths start from. -/
  here : List String

namespace Workspace

/-- The target of the link at a place. -/
def link? (w : Workspace) (place : List String) : Option String :=
  match w.top.face? place with
  | some (.link target) => some target
  | _ => none

/-- The terrain of a workspace. -/
def terrain (w : Workspace) : Terrain := ⟨w.link?, w.here⟩

theorem link?_eq_some_iff {w : Workspace} {place : List String} {target : String} :
    w.link? place = some target ↔ w.top.face? place = some (.link target) := by
  unfold link?
  split <;> simp_all

end Workspace

/-- Where an entry is or may be put. -/
def Spot.place : Spot → List String
  | .taken place _ => place
  | .free place name _ => place ++ [name]

namespace Terrain

/-- Where names point from a place; a link at the end counts for where it points if `follow` says
so. None if there are too many links. -/
def aimFrom (t : Terrain) (follow : Bool) (fuel : Nat) (place : List String)
    (names : List String) : Option (List String) :=
  match names with
  | [] => some place
  | name :: rest =>
      if name = "" ∨ name = "." then aimFrom t follow fuel place rest
      else if name = ".." then aimFrom t follow fuel place.dropLast rest
      else
        match t.links (place ++ [name]) with
        | none => aimFrom t follow fuel (place ++ [name]) rest
        | some target =>
            if rest.isEmpty && !follow then some (place ++ [name])
            else
              match fuel with
              | 0 => none
              | fuel + 1 =>
                  let place := if Path.isAbsolute target then [] else place
                  aimFrom t follow fuel place (Path.parts target ++ rest)
termination_by (fuel, names.length)

/-- Where a path starts. -/
def start (t : Terrain) (path : String) : List String := if Path.isAbsolute path then [] else t.here

/-- Where a path points. -/
def aim (t : Terrain) (follow : Bool) (path : String) : Option (List String) :=
  t.aimFrom follow maxLinks (t.start path) (Path.parts path)

variable {t : Terrain} {follow : Bool} {fuel : Nat} {place names more : List String}

theorem aimFrom_blank {name : String} (h : name = "" ∨ name = ".") :
    t.aimFrom follow fuel place (name :: names) = t.aimFrom follow fuel place names := by
  rw [aimFrom, if_pos h]

theorem aimFrom_up : t.aimFrom follow fuel place (".." :: names)
    = t.aimFrom follow fuel place.dropLast names := by
  rw [aimFrom, if_neg (by simp), if_pos rfl]

section

variable {name target : String} (hblank : ¬ (name = "" ∨ name = ".")) (hup : ¬ name = "..")

include hblank hup

theorem aimFrom_child (hnone : t.links (place ++ [name]) = none) :
    t.aimFrom follow fuel place (name :: names) = t.aimFrom follow fuel (place ++ [name]) names := by
  rw [aimFrom, if_neg hblank, if_neg hup, hnone]

theorem aimFrom_lastLink (hlink : t.links (place ++ [name]) = some target)
    (hlast : (names.isEmpty && !follow) = true) :
    t.aimFrom follow fuel place (name :: names) = some (place ++ [name]) := by
  rw [aimFrom, if_neg hblank, if_neg hup, hlink]
  exact if_pos hlast

theorem aimFrom_linkless (hlink : t.links (place ++ [name]) = some target)
    (hlast : ¬ (names.isEmpty && !follow) = true) :
    t.aimFrom follow 0 place (name :: names) = none := by
  rw [aimFrom, if_neg hblank, if_neg hup, hlink]
  exact if_neg hlast

theorem aimFrom_link (hlink : t.links (place ++ [name]) = some target)
    (hlast : ¬ (names.isEmpty && !follow) = true) :
    t.aimFrom follow (fuel + 1) place (name :: names)
      = t.aimFrom follow fuel (if Path.isAbsolute target then [] else place)
          (Path.parts target ++ names) := by
  rw [aimFrom, if_neg hblank, if_neg hup, hlink]
  exact if_neg hlast

end

theorem aimFrom_blanks (h : ∀ name ∈ names, name = "" ∨ name = ".") (more : List String) :
    t.aimFrom follow fuel place (names ++ more) = t.aimFrom follow fuel place more := by
  induction names with
  | nil => rfl
  | cons name names ih =>
      rw [List.cons_append, aimFrom_blank (h name (by simp)), ih fun n hn => h n (by simp [hn])]

end Terrain

namespace Workspace

variable {w : Workspace} {follow : Bool} {spot : Spot} {path : String}

/-- Whether a child of a folder is a link is seen from the folder. -/
theorem links_child {place : List String} {children : List (String × Entry)}
    (hfolder : w.top.get? place = some (.folder children)) (name : String) :
    w.terrain.links (place ++ [name]) = match children.lookup name with
      | some (.link target) => some target
      | _ => none := by
  show w.link? _ = _
  unfold link? face?
  rw [get?_child hfolder]
  cases children.lookup name with
  | none => rfl
  | some entry => cases entry <;> rfl

/-- What is no link is none on the terrain. -/
theorem links_child_eq_none {place : List String} {children : List (String × Entry)} {name : String}
    {entry : Entry} (hfolder : w.top.get? place = some (.folder children))
    (hentry : children.lookup name = some entry) (hnolink : ∀ target, entry ≠ .link target) :
    w.terrain.links (place ++ [name]) = none := by
  rw [links_child hfolder, hentry]
  cases entry with
  | link target => exact absurd rfl (hnolink target)
  | _ => rfl

theorem aimFrom_of_walk {fuel : Nat} {place names : List String}
    (h : w.walk follow fuel place names = .ok spot) :
    w.terrain.aimFrom follow fuel place names = some spot.place := by
  fun_induction Workspace.walk w follow fuel place names with
  | case1 fuel place entry hentry =>
      obtain rfl := Except.ok.inj h
      rw [Terrain.aimFrom, Spot.place]
  | case3 fuel place name rest children hfolder hblank ih =>
      rw [Terrain.aimFrom_blank hblank, ih h]
  | case4 fuel place rest children hfolder hblank ih =>
      rw [Terrain.aimFrom_up, ih h]
  | case6 fuel place name rest children hfolder hblank hup hlong hnone hall =>
      obtain rfl := Except.ok.inj h
      have hrest : ∀ n ∈ rest, n = "" ∨ n = "." := fun n hn =>
        .inl (by simpa using List.all_eq_true.mp hall n hn)
      have hblanks : w.terrain.aimFrom follow fuel (place ++ [name]) (rest ++ []) = _ :=
        Terrain.aimFrom_blanks hrest []
      rw [List.append_nil] at hblanks
      rw [Terrain.aimFrom_child hblank hup (by rw [links_child hfolder, hnone]), hblanks,
        Terrain.aimFrom, Spot.place]
  | case8 fuel place name rest children hfolder hblank hup hlong target htarget hlast =>
      obtain rfl := Except.ok.inj h
      exact Terrain.aimFrom_lastLink hblank hup (by rw [links_child hfolder, htarget]) hlast
  | case10 place name rest children hfolder hblank hup hlong target htarget hlast fuel next ih =>
      rw [Terrain.aimFrom_link hblank hup (by rw [links_child hfolder, htarget]) hlast]
      exact ih h
  | case11 fuel place name rest children hfolder hblank hup hlong entry hnolink hentry ih =>
      rw [Terrain.aimFrom_child hblank hup (links_child_eq_none hfolder hentry hnolink), ih h]
  | _ => simp_all

theorem walk_of_resolve (h : w.resolve follow path = .ok spot) :
    w.walk follow maxLinks (w.start path) (Path.parts path) = .ok spot :=
  (resolve_eq_walk h w follow).symm.trans h

theorem exists?_eq_true_iff : w.exists? path = true
    ↔ ∃ place entry, w.resolve true path = .ok (.taken place entry) := by
  unfold exists? entry?
  rw [Option.isSome_iff_exists]
  constructor
  · rintro ⟨entry, hentry⟩
    split at hentry
    · next place found hresolve => exact ⟨place, found, hresolve⟩
    · simp at hentry
  · rintro ⟨place, entry, hresolve⟩
    exact ⟨entry, by rw [hresolve]⟩

/-- **What a path leads to is where it points.** -/
theorem aim_of_resolve (h : w.resolve follow path = .ok spot) :
    w.terrain.aim follow path = some spot.place :=
  aimFrom_of_walk (walk_of_resolve h)

/-- Paths that point at different places do not lead to one entry. -/
theorem isSame_eq_false {other : String} {p q : List String}
    (hpath : w.terrain.aim true path = some p) (hother : w.terrain.aim true other = some q)
    (hne : p ≠ q) : w.isSame path other = false := by
  unfold isSame
  split
  · next place entry place' entry' hresolve hresolve' =>
      obtain rfl := Option.some.inj (hpath.symm.trans (aim_of_resolve hresolve))
      obtain rfl := Option.some.inj (hother.symm.trans (aim_of_resolve hresolve'))
      simpa [Spot.place] using hne
  · rfl

end Workspace

namespace Terrain

variable {t : Terrain} {follow : Bool} {fuel : Nat} {place names more : List String}

/-- Where no link is, it does not matter whether one would be followed. -/
theorem aimFrom_follow {q : List String} (h : t.aimFrom false fuel place names = some q)
    (hlink : t.links q = none) : t.aimFrom true fuel place names = some q := by
  fun_induction aimFrom t false fuel place names with
  | case1 fuel place => rwa [aimFrom]
  | case2 fuel place name rest hblank ih => rw [aimFrom_blank hblank, ih h]
  | case3 fuel place rest hblank ih => rw [aimFrom_up, ih h]
  | case4 fuel place name rest hblank hup hnone ih => rw [aimFrom_child hblank hup hnone, ih h]
  | case5 fuel place name rest hblank hup target htarget hlast =>
      obtain rfl := Option.some.inj h
      simp [htarget] at hlink
  | case6 place name rest hblank hup target htarget hlast => simp at h
  | case7 place name rest hblank hup target htarget hlast fuel next ih =>
      rw [aimFrom_link hblank hup htarget (by simp)]
      exact ih h

end Terrain

namespace Workspace

variable {w : Workspace} {spot : Spot} {path : String}

/-- A path that is followed to its end leads there without following, unless it ends at a link. -/
theorem walk_nofollow {fuel : Nat} {place names : List String}
    (h : w.walk true fuel place names = .ok spot)
    (hlink : ∀ q, w.terrain.aimFrom false fuel place names = some q → w.link? q = none) :
    w.walk false fuel place names = .ok spot := by
  fun_induction Workspace.walk w true fuel place names with
  | case1 fuel place entry hentry => rwa [walk_nil hentry]
  | case3 fuel place name rest children hfolder hblank ih =>
      rw [Terrain.aimFrom_blank hblank] at hlink
      rw [walk_blank hfolder hblank, ih h hlink]
  | case4 fuel place rest children hfolder hblank ih =>
      rw [Terrain.aimFrom_up] at hlink
      rw [walk_up hfolder, ih h hlink]
  | case6 fuel place name rest children hfolder hblank hup hlong hnone hall =>
      rwa [walk_free hfolder hblank hup hlong hnone hall]
  | case10 place name rest children hfolder hblank hup hlong target htarget hlast fuel next ih =>
      have hthere : w.terrain.links (place ++ [name]) = some target := by
        rw [links_child hfolder, htarget]
      by_cases hstop : (rest.isEmpty && !false) = true
      · -- The link at the end would be what the path points at.
        have hnone : w.link? (place ++ [name]) = none :=
          hlink _ (Terrain.aimFrom_lastLink hblank hup hthere hstop)
        cases hnone.symm.trans hthere
      · rw [Terrain.aimFrom_link hblank hup hthere hstop] at hlink
        rw [walk_link hfolder hblank hup hlong htarget hstop]
        exact ih h hlink
  | case11 fuel place name rest children hfolder hblank hup hlong entry hnolink hentry ih =>
      rw [Terrain.aimFrom_child hblank hup (links_child_eq_none hfolder hentry hnolink)] at hlink
      rw [walk_child hfolder hblank hup hlong hentry hnolink]
      exact ih h hlink
  | _ => simp_all

/-- A path that leads to something other than a link without being followed to its end leads there
when it is followed. -/
theorem walk_follow {fuel : Nat} {place names : List String}
    (h : w.walk false fuel place names = .ok spot)
    (hlink : ∀ q target, spot ≠ .taken q (.link target)) :
    w.walk true fuel place names = .ok spot := by
  fun_induction Workspace.walk w false fuel place names with
  | case1 fuel place found hfound => rwa [walk_nil hfound]
  | case3 fuel place name rest children hfolder hblank ih => rw [walk_blank hfolder hblank, ih h]
  | case4 fuel place rest children hfolder hblank ih => rw [walk_up hfolder, ih h]
  | case6 fuel place name rest children hfolder hblank hup hlong hnone hall =>
      rwa [walk_free hfolder hblank hup hlong hnone hall]
  | case8 fuel place name rest children hfolder hblank hup hlong target htarget hlast =>
      exact absurd (Except.ok.inj h).symm (hlink _ target)
  | case10 place name rest children hfolder hblank hup hlong target htarget hlast fuel next ih =>
      rw [walk_link hfolder hblank hup hlong htarget (by simp)]
      exact ih h
  | case11 fuel place name rest children hfolder hblank hup hlong found hnolink hfound ih =>
      rw [walk_child hfolder hblank hup hlong hfound hnolink]
      exact ih h
  | _ => simp_all

theorem resolve_nofollow (h : w.resolve true path = .ok spot)
    (hlink : ∀ q, w.terrain.aim false path = some q → w.link? q = none) :
    w.resolve false path = .ok spot :=
  (resolve_eq_walk h w false).trans (walk_nofollow (walk_of_resolve h) hlink)

theorem resolve_follow (h : w.resolve false path = .ok spot)
    (hlink : ∀ q target, spot ≠ .taken q (.link target)) : w.resolve true path = .ok spot :=
  (resolve_eq_walk h w true).trans (walk_follow (walk_of_resolve h) hlink)

end Workspace

namespace Terrain

variable {t : Terrain} {follow : Bool} {fuel : Nat} {place names more : List String}

/-! ## Steps -/

/-- Whether a name leads anywhere. -/
def isStep (name : String) : Bool := name ≠ "" ∧ name ≠ "."

theorem isStep_eq_false_iff {name : String} : isStep name = false ↔ name = "" ∨ name = "." := by
  unfold isStep
  by_cases h : name = "" <;> simp [h]

theorem filter_isStep_of_blank {name : String} (h : name = "" ∨ name = ".") (rest : List String) :
    (name :: rest).filter isStep = rest.filter isStep := by
  rw [List.filter_cons, if_neg (by simpa using isStep_eq_false_iff.mpr h)]

theorem filter_isStep_of_step {name : String} (h : ¬ (name = "" ∨ name = ".")) (rest : List String) :
    (name :: rest).filter isStep = name :: rest.filter isStep := by
  rw [List.filter_cons, if_pos]
  exact Bool.not_eq_false _ ▸ fun hfalse => h (isStep_eq_false_iff.mp hfalse)

/-- In front of the first step nothing counts. -/
theorem exists_first_step {name : String} (h : names.filter isStep = name :: more) :
    ∃ rest, rest.filter isStep = more ∧ ∀ {t : Terrain} {fuel : Nat} {place : List String},
      t.aimFrom true fuel place names = t.aimFrom true fuel place (name :: rest) := by
  obtain ⟨blanks, rest, rfl, hblanks, -, hrest⟩ := List.filter_eq_cons_iff.mp h
  refine ⟨rest, hrest, fun {t fuel place} => aimFrom_blanks (fun n hn => ?_) _⟩
  exact isStep_eq_false_iff.mp (by simpa using hblanks n hn)

/-- Names that lead nowhere make no difference. -/
theorem aimFrom_congr {names' : List String} (h : names.filter isStep = names'.filter isStep) :
    t.aimFrom true fuel place names = t.aimFrom true fuel place names' := by
  fun_induction aimFrom t true fuel place names generalizing names' with
  | case1 fuel place =>
      have hblank : ∀ name ∈ names', name = "" ∨ name = "." := fun name hname =>
        isStep_eq_false_iff.mp (by simpa using List.filter_eq_nil_iff.mp h.symm name hname)
      have hblanks : t.aimFrom true fuel place (names' ++ []) = _ := aimFrom_blanks hblank []
      rw [List.append_nil] at hblanks
      rw [hblanks, aimFrom]
  | case2 fuel place name rest hblank ih =>
      rw [filter_isStep_of_blank hblank] at h
      exact ih h
  | case3 fuel place rest hblank ih =>
      obtain ⟨rest', hrest, heq⟩ := exists_first_step (h.symm.trans (filter_isStep_of_step hblank _))
      rw [heq, aimFrom_up]
      exact ih hrest.symm
  | case4 fuel place name rest hblank hup hnone ih =>
      obtain ⟨rest', hrest, heq⟩ := exists_first_step (h.symm.trans (filter_isStep_of_step hblank _))
      rw [heq, aimFrom_child hblank hup hnone]
      exact ih hrest.symm
  | case5 fuel place name rest hblank hup target htarget hlast => simp at hlast
  | case6 place name rest hblank hup target htarget hlast =>
      obtain ⟨rest', hrest, heq⟩ := exists_first_step (h.symm.trans (filter_isStep_of_step hblank _))
      rw [heq, aimFrom_linkless hblank hup htarget (by simp)]
  | case7 place name rest hblank hup target htarget hlast fuel next =>
      rename_i ih
      obtain ⟨rest', hrest, heq⟩ := exists_first_step (h.symm.trans (filter_isStep_of_step hblank _))
      rw [heq, aimFrom_link hblank hup htarget (by simp)]
      exact ih (by rw [List.filter_append, List.filter_append, hrest])

end Terrain

/-! ## Joined paths -/

namespace Path

/-- The names of a path that count. -/
def steps (path : String) : List String := (parts path).filter Terrain.isStep

theorem parts_empty : parts "" = [""] := by decide

theorem parts_ne_nil (path : String) : parts path ≠ [] := by simp [parts]

theorem isAbsolute_empty : isAbsolute "" = false := by decide

/-- A slash parts the names before it from those after it. -/
theorem parts_append_slash (folder path : String) :
    parts (folder ++ "/" ++ path) = parts folder ++ parts path := by
  have hslash : (folder ++ "/" ++ path).toList = folder.toList ++ '/' :: path.toList := by
    rw [String.toList_append, String.toList_append, List.append_assoc]
    rfl
  rw [parts, hslash, List.splitOn_append_cons_self, List.map_append, parts, parts]

theorem isAbsolute_append {path : String} (h : path ≠ "") (more : String) :
    isAbsolute (path ++ more) = isAbsolute path := by
  unfold isAbsolute
  rw [String.toList_append]
  cases hlist : path.toList with
  | nil => exact absurd (String.toList_inj.mp hlist) h
  | cons c rest => rfl

/-- The parts of a joined path are those of the folder, but for what does not count, and then those
of the path. -/
theorem exists_parts_join (folder : String) {path : String} (hpath : isAbsolute path = false) :
    ∃ front, parts (join folder path) = front ++ parts path
      ∧ front.filter Terrain.isStep = steps folder
      ∧ isAbsolute (join folder path) = isAbsolute folder := by
  unfold join
  by_cases hempty : folder = ""
  · subst hempty
    refine ⟨[], ?_, by decide, ?_⟩
    · simp
    · simp [hpath, isAbsolute_empty]
  · have hnot : (isAbsolute path || folder.isEmpty) = false := by
      simpa [hpath] using hempty
    rw [if_neg (by simp [hnot])]
    split
    · next hends =>
        obtain ⟨before, hbefore⟩ := List.getLast?_eq_some_iff.mp (by simpa [Text.endsWith] using hends)
        have hfolder : folder = String.ofList before ++ "/" := by
          rw [← String.toList_inj, hbefore, String.toList_append, String.toList_ofList]
          rfl
        refine ⟨parts (String.ofList before), ?_, ?_, isAbsolute_append hempty _⟩
        · rw [hfolder, parts_append_slash]
        · have happend := parts_append_slash (String.ofList before) ""
          rw [String.append_empty, ← hfolder] at happend
          rw [steps, happend, List.filter_append, parts_empty]
          simp [Terrain.isStep]
    · refine ⟨parts folder, parts_append_slash folder path, rfl, ?_⟩
      rw [String.append_assoc, isAbsolute_append hempty]

theorem not_isAbsolute_of_proper {path : String} (h : ∀ n ∈ parts path, ProperName n) :
    isAbsolute path = false := by
  cases hlist : path.toList with
  | nil => simp [isAbsolute, hlist]
  | cons c rest =>
      have hc : c ≠ '/' := by
        rintro rfl
        have hempty : "" ∈ parts path := by
          rw [parts, hlist, List.splitOn_cons_eq_if_modifyHead]
          simp
        exact (h "" hempty).ne_empty rfl
      simpa [isAbsolute, hlist] using hc

end Path

namespace Terrain

variable {t : Terrain} {follow : Bool} {fuel : Nat} {place names more : List String}

/-- No link is on the way that names lead down from a place. -/
def IsClear (t : Terrain) (place names : List String) : Prop :=
  ∀ front, front <+: names → front ≠ [] → t.links (place ++ front) = none

theorem isClear_cons {name : String} (h : t.IsClear place (name :: names)) :
    t.links (place ++ [name]) = none ∧ t.IsClear (place ++ [name]) names := by
  constructor
  · exact h [name] (by simp) (by simp)
  · intro front hfront _
    rw [List.append_assoc]
    exact h (name :: front) (by simpa using hfront) (by simp)

/-- Names point down unless a link is met. -/
theorem aimFrom_proper (hnames : ∀ n ∈ names, ProperName n) (h : t.IsClear place names) :
    t.aimFrom follow fuel place names = some (place ++ names) := by
  induction names generalizing place with
  | nil => rw [aimFrom, List.append_nil]
  | cons name rest ih =>
      have hname := hnames name (by simp)
      obtain ⟨hnone, hclear⟩ := isClear_cons h
      rw [aimFrom_child hname.not_blank hname.ne_dots hnone]
      rw [ih (fun n hn => hnames n (by simp [hn])) hclear, List.append_assoc]
      rfl

theorem aimFrom_append (hne : more ≠ []) (hmore : ∀ n ∈ more, ProperName n)
    (h : ∀ q, t.aimFrom true fuel place names = some q → t.IsClear q more) :
    t.aimFrom follow fuel place (names ++ more)
      = (t.aimFrom true fuel place names).map (· ++ more) := by
  fun_induction aimFrom t true fuel place names with
  | case1 fuel place =>
      rw [List.nil_append, aimFrom_proper hmore (h place rfl), Option.map_some]
  | case2 fuel place name rest hblank ih => rw [List.cons_append, aimFrom_blank hblank, ih h]
  | case3 fuel place rest hblank ih =>
      rw [List.cons_append, aimFrom_up, ih h]
  | case4 fuel place name rest hblank hup hnone ih =>
      rw [List.cons_append, aimFrom_child hblank hup hnone]
      exact ih h
  | case5 fuel place name rest hblank hup target htarget hlast => simp at hlast
  | case6 place name rest hblank hup target htarget hlast =>
      rw [List.cons_append, aimFrom_linkless hblank hup htarget (by simp [hne]), Option.map_none]
  | case7 place name rest hblank hup target htarget hlast fuel next ih =>
      rw [List.cons_append, aimFrom_link hblank hup htarget (by simp [hne]), ← List.append_assoc]
      exact ih h

/-- Where no link is followed at its end, a further name points into the folder. -/
theorem aimFrom_append_name {name : String} (hname : ProperName name) :
    t.aimFrom false fuel place (names ++ [name])
      = (t.aimFrom true fuel place names).map (· ++ [name]) := by
  fun_induction aimFrom t true fuel place names with
  | case1 fuel place =>
      rw [List.nil_append, aimFrom, if_neg hname.not_blank, if_neg hname.ne_dots]
      split
      · rw [aimFrom, Option.map_some]
      · simp
  | case2 fuel place n rest hblank ih => rw [List.cons_append, aimFrom_blank hblank, ih]
  | case3 fuel place rest hblank ih =>
      rw [List.cons_append, aimFrom_up, ih]
  | case4 fuel place n rest hblank hup hnone ih =>
      rw [List.cons_append, aimFrom_child hblank hup hnone]
      exact ih
  | case5 fuel place n rest hblank hup target htarget hlast => simp at hlast
  | case6 place n rest hblank hup target htarget hlast =>
      rw [List.cons_append, aimFrom_linkless hblank hup htarget (by simp), Option.map_none]
  | case7 place n rest hblank hup target htarget hlast fuel next ih =>
      rw [List.cons_append, aimFrom_link hblank hup htarget (by simp), ← List.append_assoc]
      exact ih

/-- **A path within a folder points where its names say**, below where the folder's path points,
unless a link is on its way. -/
theorem aim_join {folder path : String} (hpath : ∀ n ∈ Path.parts path, ProperName n)
    (h : ∀ q, t.aim true folder = some q → t.IsClear q (Path.parts path)) :
    t.aim follow (Path.join folder path)
      = (t.aim true folder).map (· ++ Path.parts path) := by
  obtain ⟨front, hparts, hfront, habsolute⟩ :=
    Path.exists_parts_join folder (Path.not_isAbsolute_of_proper hpath)
  have hne : Path.parts path ≠ [] := by
    rw [Path.parts, ne_eq, List.map_eq_nil_iff]
    exact List.splitOn_ne_nil '/' _
  have haim : t.aimFrom true maxLinks (t.start folder) front = t.aim true folder :=
    aimFrom_congr hfront
  have hstart : t.start (Path.join folder path) = t.start folder := by
    rw [start, start, habsolute]
  rw [aim, hparts, hstart, aimFrom_append hne hpath (haim ▸ h), haim]

end Terrain

/-- Where names point to with more names behind them is where those point from there. -/
theorem Terrain.exists_aimFrom {t : Terrain} {fuel : Nat} {place front back q : List String}
    (h : t.aimFrom true fuel place (front ++ back) = some q) :
    ∃ between fuel', t.aimFrom true fuel place front = some between
      ∧ t.aimFrom true fuel' between back = some q := by
  fun_induction Terrain.aimFrom t true fuel place front with
  | case1 fuel place => exact ⟨place, fuel, rfl, h⟩
  | case2 fuel place name rest hblank ih =>
      rw [List.cons_append, aimFrom_blank hblank] at h
      exact ih h
  | case3 fuel place rest hblank ih =>
      rw [List.cons_append, aimFrom_up] at h
      exact ih h
  | case4 fuel place name rest hblank hup hlink ih =>
      rw [List.cons_append, aimFrom_child hblank hup hlink] at h
      exact ih h
  | case5 fuel place name rest hblank hup target hlink hlast => simp at hlast
  | case6 place name rest hblank hup target hlink hlast =>
      rw [List.cons_append, aimFrom_linkless hblank hup hlink (by simp)] at h
      cases h
  | case7 place name rest hblank hup target hlink hlast fuel next ih =>
      rw [List.cons_append, aimFrom_link hblank hup hlink (by simp), ← List.append_assoc] at h
      exact ih h

/-- Names that do not go up again point down, or meet a link further down. -/
theorem Terrain.prefix_or_link {t : Terrain} {fuel : Nat} {place names q : List String}
    (hnames : ".." ∉ names) (h : t.aimFrom true fuel place names = some q) :
    place <+: q ∨ ∃ n more, t.links (place ++ n :: more) ≠ none := by
  induction names generalizing place with
  | nil =>
      rw [aimFrom] at h
      exact .inl (Option.some.inj h ▸ List.prefix_refl _)
  | cons name rest ih =>
      have hname : name ≠ ".." := fun heq => hnames (by simp [heq])
      have hrest : ".." ∉ rest := fun hmem => hnames (by simp [hmem])
      rw [aimFrom, if_neg hname] at h
      split at h
      · exact ih hrest h
      · cases hlink : t.links (place ++ [name]) with
        | some target => exact .inr ⟨name, [], by simp [hlink]⟩
        | none =>
            rw [hlink] at h
            rcases ih hrest h with hprefix | ⟨n, more, hmore⟩
            · exact .inl ((List.prefix_append _ _).trans hprefix)
            · exact .inr ⟨name, n :: more, by rwa [← List.append_cons] at hmore⟩

/-! ## Parents -/

namespace Path

/-- A slash parts the steps before it from those after it. -/
theorem steps_slash (before after : Text) :
    steps (String.ofList (before ++ '/' :: after))
      = steps (String.ofList before) ++ steps (String.ofList after) := by
  have hslash : String.ofList (before ++ '/' :: after)
      = String.ofList before ++ "/" ++ String.ofList after := by
    rw [← String.toList_inj]
    simp only [String.toList_append, String.toList_ofList, List.append_assoc]
    rfl
  rw [steps, hslash, parts_append_slash, List.filter_append, steps, steps]

theorem isAbsolute_ofList_append {before : Text} (h : before ≠ []) (after : Text) :
    isAbsolute (String.ofList (before ++ after)) = isAbsolute (String.ofList before) := by
  cases before with
  | nil => exact absurd rfl h
  | cons c rest => simp [isAbsolute]

theorem steps_nothing : steps (String.ofList []) = [] ∧ steps (String.ofList ['.']) = [] := by
  decide

/-- What is dropped from the ending of a path does not count. -/
theorem steps_dropEnding (t : Text) :
    steps (String.ofList (dropEnding t).reverse) = steps (String.ofList t.reverse)
      ∧ isAbsolute (String.ofList (dropEnding t).reverse) = isAbsolute (String.ofList t.reverse) := by
  fun_induction dropEnding t with
  | case1 => exact ⟨rfl, rfl⟩
  | case2 => exact ⟨rfl, rfl⟩
  | case3 rest hne ih =>
      rw [List.reverse_cons, isAbsolute_ofList_append (by simpa using hne), steps_slash,
        steps_nothing.1, List.append_nil]
      exact ih
  | case4 c rest hslash hdot ih =>
      obtain ⟨rfl, hhead⟩ := hdot
      obtain ⟨more, rfl⟩ := List.head?_eq_some_iff.mp hhead
      have hdots : ('.' :: '/' :: more).reverse = more.reverse ++ '/' :: ['.'] := by simp
      have hrest : ('/' :: more).reverse = more.reverse ++ '/' :: [] := by simp
      rw [hrest, steps_slash, steps_nothing.1] at ih
      rw [hdots, steps_slash, steps_nothing.2]
      refine ⟨ih.1, ih.2.trans ?_⟩
      cases more.reverse <;> simp [isAbsolute]
  | case5 c rest hslash hdot => exact ⟨rfl, rfl⟩

/-- The slashes at the end of a path do not count, unless they are all of it. -/
theorem steps_dropSlashes (path : String) : dropSlashes path = "" ∨
    steps (dropSlashes path) = steps path ∧ isAbsolute (dropSlashes path) = isAbsolute path := by
  have hending : ∀ t : Text, t.dropWhile (· = '/') = [] ∨
      steps (String.ofList (t.dropWhile (· = '/')).reverse) = steps (String.ofList t.reverse)
        ∧ isAbsolute (String.ofList (t.dropWhile (· = '/')).reverse)
          = isAbsolute (String.ofList t.reverse) := by
    intro t
    induction t with
    | nil => exact .inl rfl
    | cons c rest ih =>
        by_cases hc : c = '/'
        · subst hc
          rw [List.dropWhile_cons_of_pos (by simp)]
          by_cases hrest : rest = []
          · exact .inl (by rw [hrest]; rfl)
          · rw [List.reverse_cons, isAbsolute_ofList_append (by simpa using hrest), steps_slash,
              steps_nothing.1, List.append_nil]
            exact ih
        · rw [List.dropWhile_cons_of_neg (by simpa using hc)]
          exact .inr ⟨rfl, rfl⟩
  rw [dropSlashes]
  rcases hending path.toList.reverse with hnil | hsame
  · exact .inl (by rw [hnil]; rfl)
  · rw [List.reverse_reverse, String.ofList_toList] at hsame
    exact .inr hsame

/-- A path whose ending is dropped ends in a name, unless it is a slash or a dot alone. -/
theorem dropEnding_eq_cons {t rest : Text} {c : Char} (h : dropEnding t = c :: rest) :
    (c = '/' → rest = []) ∧ ¬ (c = '.' ∧ rest.head? = some '/') := by
  fun_induction dropEnding t with
  | case1 => simp at h
  | case2 =>
      obtain ⟨rfl, rfl⟩ := List.cons.inj h
      exact ⟨fun _ => rfl, by simp⟩
  | case3 more hne ih => exact ih h
  | case4 d more hslash hdot ih => exact ih h
  | case5 d more hslash hdot =>
      obtain ⟨rfl, rfl⟩ := List.cons.inj h
      exact ⟨fun heq => absurd heq hslash, hdot⟩

theorem length_steps_le {t : Text} (h : '/' ∉ t) : (steps (String.ofList t)).length ≤ 1 := by
  have hparts : (parts (String.ofList t)).length = 1 := by
    rw [parts, String.toList_ofList, List.splitOn_eq_singleton h]
    rfl
  exact hparts ▸ List.length_filter_le _ _

/-- The parent of a path has its steps but the last, and starts where the path does. -/
theorem steps_parent {path parent : String} (h : parent? path = some parent) :
    (∃ last, steps path = steps parent ++ last ∧ last.length ≤ 1 ∧ (steps path ≠ [] → last ≠ []))
      ∧ isAbsolute parent = isAbsolute path := by
  obtain ⟨hsteps, habsolute⟩ := steps_dropEnding path.toList.reverse
  rw [List.reverse_reverse, String.ofList_toList] at hsteps habsolute
  rw [parent?] at h
  have hending : ∀ c rest, dropEnding path.toList.reverse = c :: rest →
      (c = '/' → rest = []) ∧ ¬ (c = '.' ∧ rest.head? = some '/') :=
    fun _ _ => dropEnding_eq_cons
  generalize dropEnding path.toList.reverse = last at hsteps habsolute h hending
  have hparent : last ≠ ['/'] ∧ some (String.ofList (dropEnding (last.dropWhile (· ≠ '/'))).reverse)
      = some parent := by
    split at h
    · simp at h
    · simp at h
    · next hroot => exact ⟨hroot, h⟩
  obtain ⟨hroot, hparent⟩ := hparent
  obtain rfl := Option.some.inj hparent
  obtain ⟨hfront, hstart⟩ := steps_dropEnding (last.dropWhile (· ≠ '/'))
  obtain ⟨name, hname, hcut⟩ : ∃ name, '/' ∉ name ∧ last = name ++ last.dropWhile (· ≠ '/') := by
    refine ⟨last.takeWhile (· ≠ '/'), fun hmem => ?_, List.takeWhile_append_dropWhile.symm⟩
    simpa using List.all_eq_true.mp List.all_takeWhile _ hmem
  rw [hfront, hstart, ← hsteps, ← habsolute]
  cases hrest : last.dropWhile (· ≠ '/') with
  | nil =>
      -- The path is one name, so it is relative.
      rw [hrest, List.append_nil] at hcut
      have hone : (steps (String.ofList last.reverse)).length ≤ 1 :=
        length_steps_le (by simpa [hcut] using hname)
      refine ⟨⟨_, by rw [List.reverse_nil, steps_nothing.1, List.nil_append], hone, id⟩, ?_⟩
      cases hlast : last.reverse with
      | nil => rfl
      | cons c more =>
          have hmem : c ∈ name := by rw [← hcut, ← List.mem_reverse, hlast]; simp
          have hc : c ≠ '/' := fun heq => hname (heq ▸ hmem)
          simp [isAbsolute, hc]
  | cons c rest =>
      have hslash : c = '/' := by
        have hhead := List.head?_dropWhile_not (· ≠ '/') last
        rw [hrest] at hhead
        simpa using hhead
      subst hslash
      rw [hrest] at hcut
      have hlast : last.reverse = rest.reverse ++ '/' :: name.reverse := by
        rw [hcut]
        simp
      rw [List.reverse_cons, hlast, steps_slash, steps_slash, steps_nothing.1, List.append_nil]
      refine ⟨⟨_, rfl, length_steps_le (by simpa using hname), fun _ => ?_⟩, ?_⟩
      · -- What follows the last slash is neither nothing nor a dot, so it is a step.
        have hparts : parts (String.ofList name.reverse) = [String.ofList name.reverse] := by
          rw [parts, String.toList_ofList, List.splitOn_eq_singleton (by simpa using hname)]
          rfl
        have hstep : Terrain.isStep (String.ofList name.reverse) = true := by
          rw [← Bool.not_eq_false, Terrain.isStep_eq_false_iff]
          rintro (hempty | hdot)
          · have hnil : name = [] := by simpa [← String.toList_inj] using hempty
            have hrow := (hending '/' rest (by rw [hcut, hnil]; rfl)).1 rfl
            exact hroot (by rw [hcut, hnil, hrow]; rfl)
          · have hone : name = ['.'] := by
              have hreverse : name.reverse = ['.'] := by simpa [← String.toList_inj] using hdot
              rw [← List.reverse_reverse name, hreverse]
              rfl
            exact (hending '.' ('/' :: rest) (by rw [hcut, hone]; rfl)).2 ⟨rfl, rfl⟩
        rw [steps, hparts, List.filter_cons, if_pos hstep]
        simp
      · have hcons := List.append_cons rest.reverse '/' name.reverse
        exact hcons ▸ (isAbsolute_ofList_append (by simp) name.reverse).symm

theorem steps_of_mem_ancestors {path ancestor : String} (h : ancestor ∈ ancestors path) :
    steps ancestor <+: steps path ∧ isAbsolute ancestor = isAbsolute path := by
  have hfrom : ∀ {fuel : Nat} {path : String}, ancestor ∈ ancestorsFrom fuel path →
      steps ancestor <+: steps path ∧ isAbsolute ancestor = isAbsolute path := by
    intro fuel
    induction fuel with
    | zero =>
        intro path hmem
        obtain rfl := List.mem_singleton.mp hmem
        exact ⟨List.prefix_refl _, rfl⟩
    | succ fuel ih =>
        intro path hmem
        rw [ancestorsFrom] at hmem
        split at hmem
        · next parent hparent =>
            rcases List.mem_cons.mp hmem with rfl | hmem
            · exact ⟨List.prefix_refl _, rfl⟩
            · obtain ⟨⟨last, hsteps, -, -⟩, habsolute⟩ := steps_parent hparent
              exact ⟨(ih hmem).1.trans ⟨last, hsteps.symm⟩, (ih hmem).2.trans habsolute⟩
        · obtain rfl := List.mem_singleton.mp hmem
          exact ⟨List.prefix_refl _, rfl⟩
  exact hfrom h

theorem parts_proper {name : String} (h : ProperName name) : parts name = [name] := by
  rw [parts, List.splitOn_eq_singleton h.no_slash, List.map_singleton, String.ofList_toList]

theorem steps_eq_parts {path : String} (h : ∀ n ∈ parts path, ProperName n) :
    steps path = parts path := by
  refine List.filter_eq_self.mpr fun n hn => ?_
  simp [Terrain.isStep, (h n hn).ne_empty, (h n hn).ne_dot]

theorem steps_join (folder : String) {path : String} (h : ∀ n ∈ parts path, ProperName n) :
    steps (join folder path) = steps folder ++ parts path := by
  obtain ⟨front, hparts, hfront, -⟩ := exists_parts_join folder (not_isAbsolute_of_proper h)
  have hpath := steps_eq_parts h
  rw [steps] at hpath
  rw [steps, hparts, List.filter_append, hfront, hpath]

end Path

namespace Terrain

variable {t : Terrain} {folder path : String} {q : List String}

theorem aim_eq_steps (t : Terrain) (path : String) :
    t.aim true path = t.aimFrom true maxLinks (t.start path) (Path.steps path) :=
  aimFrom_congr (by rw [Path.steps, List.filter_filter]; simp)

/-- A path to a name in a folder points there if a link at its end is not followed. -/
theorem aim_join_name (t : Terrain) (folder : String) {name : String} (hname : ProperName name) :
    t.aim false (Path.join folder name) = (t.aim true folder).map (· ++ [name]) := by
  have hparts := Path.parts_proper hname
  have hpath : ∀ n ∈ Path.parts name, ProperName n := by simpa [hparts] using hname
  obtain ⟨front, hjoin, hfront, habsolute⟩ :=
    Path.exists_parts_join folder (Path.not_isAbsolute_of_proper hpath)
  have haim : t.aimFrom true maxLinks (t.start folder) front = t.aim true folder :=
    aimFrom_congr hfront
  have hstart : t.start (Path.join folder name) = t.start folder := by
    rw [start, start, habsolute]
  rw [aim, hjoin, hparts, hstart, aimFrom_append_name hname, haim]

/-- Whether a path points at a place or points at one that its first steps point at. -/
def LeadsThrough (t : Terrain) (path : String) (q : List String) : Prop :=
  ∃ front, front <+: Path.steps path ∧ t.aimFrom true maxLinks (t.start path) front = some q

theorem leadsThrough_aim (h : t.aim true path = some q) : t.LeadsThrough path q :=
  ⟨_, List.prefix_refl _, t.aim_eq_steps path ▸ h⟩

/-- A path leads through what its parents point at. -/
theorem leadsThrough_of_steps {ancestor : String}
    (hsteps : Path.steps ancestor <+: Path.steps path)
    (habsolute : Path.isAbsolute ancestor = Path.isAbsolute path) (h : t.LeadsThrough ancestor q) :
    t.LeadsThrough path q := by
  obtain ⟨front, hfront, haim⟩ := h
  refine ⟨front, hfront.trans hsteps, ?_⟩
  rwa [start, ← habsolute]

/-- A path within a folder leads through what the folder's path leads through, and then down. -/
theorem leadsThrough_join (hpath : ∀ n ∈ Path.parts path, ProperName n)
    (hclear : ∀ q, t.aim true folder = some q → t.IsClear q (Path.parts path))
    (h : t.LeadsThrough (Path.join folder path) q) :
    t.LeadsThrough folder q ∨ ∃ place front, t.aim true folder = some place
      ∧ front <+: Path.parts path ∧ front ≠ [] ∧ q = place ++ front := by
  obtain ⟨steps, hsteps, haim⟩ := h
  have hstart : t.start (Path.join folder path) = t.start folder := by
    obtain ⟨-, -, -, habsolute⟩ :=
      Path.exists_parts_join folder (Path.not_isAbsolute_of_proper hpath)
    rw [start, start, habsolute]
  rw [Path.steps_join folder hpath] at hsteps
  rw [hstart] at haim
  rcases List.prefix_or_prefix_of_prefix hsteps (List.prefix_append _ _) with hfront | ⟨front, rfl⟩
  · exact .inl ⟨steps, hfront, haim⟩
  · have hfront := (List.prefix_append_right_inj _).mp hsteps
    by_cases hne : front = []
    · subst hne
      rw [List.append_nil] at haim
      exact .inl ⟨_, List.prefix_refl _, haim⟩
    · have hfolder := t.aim_eq_steps folder
      have hproper : ∀ n ∈ front, ProperName n := fun n hn => hpath n (hfront.subset hn)
      rw [aimFrom_append hne hproper fun place hplace inner hinner =>
        hclear place (hfolder.trans hplace) inner (hinner.trans hfront), ← hfolder] at haim
      obtain ⟨place, hplace, rfl⟩ := Option.map_eq_some_iff.mp haim
      exact .inr ⟨place, front, hplace, hfront, hne, rfl⟩

end Terrain

end CanvasFlutter
