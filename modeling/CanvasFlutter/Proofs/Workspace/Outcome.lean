import CanvasFlutter.Proofs.Workspace.Effect

namespace CanvasFlutter

/-!
# `CanvasFlutter.Proofs.Workspace.Outcome` — what an operation that succeeds has done

What an operation may change is known from its effect. If it succeeds, then what it was for is
where its path points: a folder has been made, a content written.

## Contents
- **Paths.** `walk_of_folders`: a path that leads somewhere does so while its folders stay.
- **Folders.** `face?_of_makeFolders`.
- **Files.** `face?_of_readBytes`, `face?_of_writeBytes`.
-/

open Entry

/-! ## Paths -/

namespace Workspace

variable {w w' : Workspace} {path : String} {q : List String}

theorem isFolder_eq_true_iff : w.isFolder path = true
    ↔ ∃ place children, w.resolve true path = .ok (.taken place (.folder children)) := by
  unfold isFolder entry?
  cases w.resolve true path with
  | error fault => simp
  | ok spot =>
      cases spot with
      | free place name asFolder => simp
      | taken place entry => cases entry <;> simp

/-- What a path leads to is at the place where it points. -/
theorem get?_of_resolve {follow : Bool} {place : List String} {entry : Entry}
    (h : w.resolve follow path = .ok (.taken place entry))
    (haim : w.terrain.aim follow path = some q) : place = q ∧ w.top.get? q = some entry := by
  obtain rfl : place = q := Option.some.inj ((aim_of_resolve h).symm.trans haim)
  exact ⟨rfl, holds_of_walk (walk_of_resolve h)⟩

theorem face?_of_isFolder (h : w.isFolder path = true) (haim : w.terrain.aim true path = some q) :
    w.top.face? q = some .folder := by
  obtain ⟨place, children, hresolve⟩ := isFolder_eq_true_iff.mp h
  exact face?_eq_folder_iff.mpr ⟨children, (get?_of_resolve hresolve haim).2⟩

theorem get?_ne_none_of_walk {follow : Bool} {fuel : Nat} {place names : List String} {spot : Spot}
    (h : w.walk follow fuel place names = .ok spot) : w.top.get? place ≠ none := by
  intro hnone
  rw [walk_nowhere hnone] at h
  cases h

theorem lookup_eq_link_iff {place : List String} {children : List (String × Entry)}
    (hfolder : w.top.get? place = some (.folder children)) {name target : String} :
    children.lookup name = some (.link target) ↔ w.terrain.links (place ++ [name]) = some target := by
  rw [links_child hfolder]
  split
  · next other hlink => simp [hlink]
  · next hno =>
      simp only [reduceCtorEq, iff_false]
      exact hno target

/-- A path that leads somewhere leads there still if links and folders have stayed, and something
is there still. -/
theorem walk_of_folders (hterrain : w'.terrain = w.terrain)
    (hfolders : ∀ q, w.top.face? q = some .folder → w'.top.face? q = some .folder)
    {fuel : Nat} {place names : List String} {entry entry' : Entry}
    (h : w.walk true fuel place names = .ok (.taken q entry)) (hq : w'.top.get? q = some entry') :
    w'.walk true fuel place names = .ok (.taken q entry') := by
  have hfolder : ∀ {here children}, w.top.get? here = some (.folder children) →
      ∃ children', w'.top.get? here = some (.folder children') := fun hhere =>
    face?_eq_folder_iff.mp (hfolders _ (face?_eq_folder_iff.mpr ⟨_, hhere⟩))
  have hlinks : ∀ {here children children' n target}, w.top.get? here = some (.folder children) →
      w'.top.get? here = some (.folder children') →
      (children'.lookup n = some (.link target) ↔ children.lookup n = some (.link target)) := by
    intro here children children' n target hhere hhere'
    rw [lookup_eq_link_iff hhere, lookup_eq_link_iff hhere', hterrain]
  fun_induction Workspace.walk w true fuel place names with
  | case1 links here e hhere =>
      obtain ⟨rfl, rfl⟩ := Spot.taken.inj (Except.ok.inj h)
      exact walk_nil hq
  | case3 links here n rest children hhere hstay ih =>
      obtain ⟨children', hhere'⟩ := hfolder hhere
      rw [walk_blank hhere' hstay]
      exact ih h
  | case4 links here rest children hhere hstay ih =>
      obtain ⟨children', hhere'⟩ := hfolder hhere
      rw [walk_up hhere']
      exact ih h
  | case6 links here n rest children hhere hstay hup hlong hnone hall => cases h
  | case10 here n rest children hhere hstay hup hlong target hlink hlast links next ih =>
      obtain ⟨children', hhere'⟩ := hfolder hhere
      have hlink' := (hlinks hhere hhere').mpr hlink
      rw [walk_link hhere' hstay hup hlong hlink' hlast]
      exact ih h
  | case11 links here n rest children hhere hstay hup hlong e hnolink hlookup ih =>
      obtain ⟨children', hhere'⟩ := hfolder hhere
      have hnext := ih h
      have hsome := get?_ne_none_of_walk hnext
      rw [get?_child hhere'] at hsome
      obtain ⟨e', hlookup'⟩ := Option.ne_none_iff_exists'.mp hsome
      have hnolink' : ∀ target, e' ≠ .link target := by
        rintro target rfl
        have hlink := (hlinks hhere hhere').mp hlookup'
        rw [hlookup] at hlink
        exact hnolink target (Option.some.inj hlink)
      rw [walk_child hhere' hstay hup hlong hlookup' hnolink']
      exact hnext
  | _ => simp_all

/-- A path that leads to something leads to something still if links and folders have stayed, and
something is there still. -/
theorem exists?_of_folders (hterrain : w'.terrain = w.terrain)
    (hfolders : ∀ q, w.top.face? q = some .folder → w'.top.face? q = some .folder)
    (h : w.exists? path = true) (haim : w.terrain.aim true path = some q)
    (hq : w'.top.face? q ≠ none) : w'.exists? path = true := by
  obtain ⟨place, entry, hresolve⟩ := exists?_eq_true_iff.mp h
  obtain ⟨rfl, -⟩ := get?_of_resolve hresolve haim
  rw [ne_eq, face?_eq_none_iff] at hq
  obtain ⟨entry', hentry'⟩ := Option.ne_none_iff_exists'.mp hq
  refine exists?_eq_true_iff.mpr ⟨place, entry', ?_⟩
  have hstart : w'.start path = w.start path := by
    have hhere : w'.here = w.here := congrArg Terrain.here hterrain
    rw [start, start, hhere]
  rw [resolve_eq_walk hresolve, hstart]
  exact walk_of_folders hterrain hfolders (walk_of_resolve hresolve) hentry'

/-- Where a path points there is nothing if the path leads to nothing and was free. -/
theorem exists?_eq_false (haim : w.terrain.aim true path = some q) (hq : w.top.face? q = none) :
    w.exists? path = false := by
  rw [← Bool.not_eq_true, exists?_eq_true_iff]
  rintro ⟨place, entry, hresolve⟩
  rw [face?_eq_none_iff, (get?_of_resolve hresolve haim).2] at hq
  cases hq

end Workspace

/-! ## Folders -/

theorem Path.exists_ancestors (path : String) : ∃ parents, ancestors path = path :: parents := by
  unfold ancestors
  cases path.length with
  | zero => exact ⟨[], rfl⟩
  | succ fuel =>
      rw [ancestorsFrom]
      split
      · exact ⟨_, rfl⟩
      · exact ⟨[], rfl⟩

namespace FileAction

variable {w w' : Workspace} {path : String} {q : List String}

/-- A folder that has been made where nothing was, after all that leads to it. -/
structure MadeNew (path : String) (w w' : Workspace) (q : List String) : Prop where
  aim : w.terrain.aim true path = some q
  before : w.top.face? q = none
  after : w'.top.face? q = some .folder
  last : ∃ u, u.terrain = w.terrain ∧ (makeFolder path).runOn u = (.ok (), w')

theorem madeNew_of_makeFolder (h : (makeFolder path).runOn w = (.ok (), w')) :
    ∃ q, MadeNew path w w' q := by
  obtain ⟨-, hne⟩ | ⟨-, place, name, asFolder, hresolve, rfl⟩ := makeFolder_cases h
  · exact absurd rfl hne
  · obtain ⟨children, hfolder, hnone⟩ :=
      Workspace.holds_of_walk (Workspace.walk_of_resolve hresolve)
    have hlink : w.link? (place ++ [name]) = none :=
      Workspace.link?_open ⟨children, hfolder, by simp [hnone]⟩
    refine ⟨place ++ [name],
      Terrain.aimFrom_follow (Workspace.aim_of_resolve hresolve) hlink, ?_, ?_, w, rfl, h⟩
    · rw [face?_child hfolder, hnone]
      rfl
    · rw [face?_put hfolder, if_pos (List.prefix_refl _)]
      simp [face?, get?, face]

/-- Making a folder with its parents either finds it or makes it. -/
theorem makeFirst_cases {parents : List String} (htidy : w.top.Tidy) (hpath : path ≠ "")
    (h : (makeFirst (path :: parents)).runOn w = (.ok (), w')) :
    w'.isFolder path = true ∨ ∃ q, MadeNew path w w' q := by
  have hempty : path.isEmpty = false := by
    rw [← Bool.not_eq_true, String.isEmpty_iff]
    exact hpath
  have hcheck : ∀ {v : Workspace} {fault : FileFault},
      (do unless ← look (·.isFolder path) do throw fault : FileAction FileFault Unit).runOn v
        = (.ok (), w') → v = w' ∧ w'.isFolder path = true := by
    intro v fault hrun
    rw [runOn_bind, runOn_look] at hrun
    cases hfound : v.isFolder path with
    | true =>
        simp only [hfound] at hrun
        obtain rfl : v = w' := congrArg Prod.snd hrun
        exact ⟨rfl, hfound⟩
    | false =>
        simp only [hfound] at hrun
        cases congrArg Prod.fst hrun
  rw [makeFirst, hempty] at h
  simp only [Bool.false_eq_true, if_false] at h
  obtain ⟨first, v, hfirst, h⟩ := runOn_attempt_bind_eq_ok h
  split at h
  · obtain rfl : v = w' := congrArg Prod.snd h
    exact .inr (madeNew_of_makeFolder hfirst)
  · -- The parents are made first; they only add folders.
    obtain ⟨_, u, hparents, hrest⟩ := runOn_bind_eq_ok h
    obtain ⟨second, v', hsecond, hlast⟩ := runOn_attempt_bind_eq_ok hrest
    obtain ⟨rfl, -⟩ | ⟨hok, -⟩ := makeFolder_cases hfirst
    · have hdoes : Does v.terrain (fun _ => False) (fun _ => True) (makeFirst parents)
          fun _ => True := does_makeFirst fun _ _ _ _ => .inr trivial
      have hmade := (hdoes v _ u rfl htidy hparents).1
      split at hlast
      · obtain rfl : v' = w' := congrArg Prod.snd hlast
        obtain ⟨q, haim, hbefore, hafter, -⟩ := madeNew_of_makeFolder hsecond
        refine .inr ⟨q, hmade.terrain ▸ haim, ?_, hafter, u, hmade.terrain, hsecond⟩
        rcases hmade.face q id with hsame | ⟨-, hnone, -⟩
        · exact hsame ▸ hbefore
        · exact hnone
      · exact .inl (hcheck hlast).2
    · cases hok
  · exact .inl (hcheck h).2

/-- **A folder that is made is there.** -/
theorem face?_of_makeFolders (htidy : w.top.Tidy) (hpath : path ≠ "")
    (h : (makeFolders path).runOn w = (.ok (), w')) (haim : w.terrain.aim true path = some q) :
    w'.top.face? q = some .folder := by
  have hdoes : Does w.terrain (fun _ => False) (fun _ => True) (makeFolders path) fun _ => True :=
    does_makeFolders fun _ _ => .inr trivial
  have hterrain := (hdoes w _ w' rfl htidy h).1.terrain
  obtain ⟨parents, hparents⟩ := Path.exists_ancestors path
  rw [makeFolders, hparents] at h
  rcases makeFirst_cases htidy hpath h with hfolder | ⟨p, hp, -, hafter, -⟩
  · exact Workspace.face?_of_isFolder hfolder (hterrain ▸ haim)
  · obtain rfl := Option.some.inj (haim.symm.trans hp)
    exact hafter

/-- A folder that was there before it was made is found. -/
theorem isFolder_of_makeFolders (htidy : w.top.Tidy) (hpath : path ≠ "")
    (h : (makeFolders path).runOn w = (.ok (), w')) (haim : w.terrain.aim true path = some q)
    (hthere : w.top.face? q ≠ none) : w'.isFolder path = true := by
  obtain ⟨parents, hparents⟩ := Path.exists_ancestors path
  rw [makeFolders, hparents] at h
  rcases makeFirst_cases htidy hpath h with hfolder | ⟨p, hp, hbefore, -, -⟩
  · exact hfolder
  · obtain rfl := Option.some.inj (haim.symm.trans hp)
    exact absurd hbefore hthere

/-! ## Files -/

theorem face?_of_readBytes {content : ByteArray}
    (h : (readBytes path).runOn w = (.ok content, w')) (haim : w.terrain.aim true path = some q) :
    w.top.face? q = some (.file content) := by
  rw [readBytes, runOn_bind, runOn_resolve] at h
  cases hresolve : w.resolve true path with
  | error fault => simp [hresolve] at h
  | ok spot =>
      rw [hresolve] at h
      cases spot with
      | free place name asFolder => cases congrArg Prod.fst h
      | taken place entry =>
          cases entry with
          | file found =>
              obtain ⟨hcontent, -⟩ := Prod.mk.inj h
              obtain rfl := Except.ok.inj hcontent
              exact face?_eq_file_iff.mpr (Workspace.get?_of_resolve hresolve haim).2
          | folder children => cases congrArg Prod.fst h
          | link target => cases congrArg Prod.fst h

theorem face?_of_readText {text : String} (h : (readText path).runOn w = (.ok text, w'))
    (haim : w.terrain.aim true path = some q) : w.top.face? q = some (.file text.toUTF8) := by
  obtain ⟨content, between, hread, h⟩ := runOn_bind_eq_ok h
  have hface := face?_of_readBytes hread haim
  unfold String.fromUTF8? at h
  split at h
  · next found htext =>
      obtain rfl : found = text := Except.ok.inj (congrArg Prod.fst h)
      split at htext
      · obtain rfl := Option.some.inj htext
        exact hface
      · cases htext
  · cases congrArg Prod.fst h

/-- The path of a file that can be read leads to something. -/
theorem exists_taken_of_readText {text : String} (h : (readText path).runOn w = (.ok text, w')) :
    ∃ place entry, w.resolve true path = .ok (.taken place entry) := by
  obtain ⟨content, between, hread, -⟩ := runOn_bind_eq_ok h
  rw [readBytes, runOn_bind, runOn_resolve] at hread
  cases hresolve : w.resolve true path with
  | error fault => simp [hresolve] at hread
  | ok spot =>
      cases spot with
      | taken place entry => exact ⟨place, entry, rfl⟩
      | free place name asFolder =>
          rw [hresolve] at hread
          cases congrArg Prod.fst hread

theorem face?_of_writeBytes {content : ByteArray}
    (h : (writeBytes path content).runOn w = (.ok (), w'))
    (haim : w.terrain.aim true path = some q) : w'.top.face? q = some (.file content) := by
  obtain ⟨place, name, spot, hresolve, hspot, rfl⟩ := exists_store_of_writeBytes h
  have hplace : spot.place = place ++ [name] := by
    rcases hspot with ⟨before, rfl⟩ | rfl <;> rfl
  have hq := (Workspace.aim_of_resolve hresolve).symm.trans haim
  rw [hplace] at hq
  obtain rfl := Option.some.inj hq
  have hopen := hspot.isOpen (Workspace.holds_of_walk (Workspace.walk_of_resolve hresolve))
  exact face?_eq_file_iff.mpr (get?_put_self hopen _)

/-- A write that succeeds changes the place that its path points at, and then the path leads to
what was written. -/
theorem exists_taken_of_writeBytes {content : ByteArray} (htidy : w.top.Tidy)
    (h : (writeBytes path content).runOn w = (.ok (), w')) :
    ∃ place, w.terrain.aim true path = some place ∧ w.Alters (· = place) (fun _ => False) w'
      ∧ w'.resolve true path = .ok (.taken place (.file content)) := by
  obtain ⟨front, name, spot, hresolve, hspot, rfl⟩ := exists_store_of_writeBytes h
  have hplace : spot.place = front ++ [name] := by
    rcases hspot with ⟨before, rfl⟩ | rfl <;> rfl
  have haim := Workspace.aim_of_resolve hresolve
  rw [hplace] at haim
  have hdoes : Does w.terrain (· = front ++ [name]) (fun _ => False) (writeBytes path content)
      fun _ => True := does_writeBytes content fun q hq => Option.some.inj (hq.symm.trans haim)
  exact ⟨_, haim, (hdoes w _ _ rfl htidy h).1, Workspace.resolve_store hspot hresolve⟩

end FileAction

end CanvasFlutter
