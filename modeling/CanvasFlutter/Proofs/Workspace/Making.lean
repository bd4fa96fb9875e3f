import CanvasFlutter.Proofs.Workspace.Descent

namespace CanvasFlutter

/-!
# `CanvasFlutter.Proofs.Workspace.Making` — file operations that succeed

Once the beginning of a path leads to a folder, it can be said what making, reading and writing
come to, be it a failure: all depends on what stands below that folder and on how long names are.

## Contents
- **Folders.** `OpensWay`; `exists_makeFolders`: what making a folder comes to.
- **Files.** `Path.IsUsable`, `Workspace.Reaches`; `runOn_readBytes`, `exists_writeBytes`,
  `exists_renameFile`.
-/

open Entry

/-! ## Folders -/

namespace FileAction

variable {w w' v : Workspace} {place names front : List String} {path name : String}
variable {parents : List String} {fault : FileFault}

/-- What the attempt to make a folder comes to if a folder that is there will do. -/
def orFolder (path : String) (r : Except FileFault Unit × Workspace) :
    Except FileFault Unit × Workspace :=
  match r with
  | (.ok (), w) => (.ok (), w)
  | (.error fault, w) => if w.isFolder path then (.ok (), w) else (.error fault, w)

theorem runOn_unless_folder (path : String) (fault : FileFault) (w : Workspace) :
    (do unless ← look (·.isFolder path) do throw fault : FileAction FileFault Unit).runOn w
      = orFolder path (.error fault, w) := by
  rw [runOn_bind, runOn_look, orFolder]
  cases w.isFolder path <;> rfl

theorem runOn_makeFirst_of_found (hpath : path ≠ "") {r : Except FileFault Unit}
    (hmake : (makeFolder path).runOn w = (r, w')) (hr : r ≠ .error .notFound) :
    (makeFirst (path :: parents)).runOn w = orFolder path (r, w') := by
  have hempty : path.isEmpty = false := by
    rw [← Bool.not_eq_true, String.isEmpty_iff]
    exact hpath
  rw [makeFirst, hempty]
  simp only [Bool.false_eq_true, if_false]
  rw [runOn_bind, runOn_attempt, hmake]
  cases r with
  | ok _ => rfl
  | error fault =>
      simp only
      split
      · next heq => cases heq
      · next heq => exact absurd heq hr
      · next heq => rw [← Except.error.inj heq, runOn_unless_folder]

theorem runOn_makeFirst_of_missing (hpath : path ≠ "")
    (hmake : (makeFolder path).runOn w = (.error .notFound, w))
    (hparents : (makeFirst parents).runOn w = (.ok (), v)) :
    (makeFirst (path :: parents)).runOn w = orFolder path ((makeFolder path).runOn v) := by
  have hempty : path.isEmpty = false := by
    rw [← Bool.not_eq_true, String.isEmpty_iff]
    exact hpath
  rw [makeFirst, hempty]
  simp only [Bool.false_eq_true, if_false]
  rw [runOn_bind, runOn_attempt, hmake]
  simp only
  rw [runOn_bind, hparents]
  simp only
  rw [runOn_bind, runOn_attempt]
  cases (makeFolder path).runOn v with
  | mk second u =>
      cases second with
      | ok _ => rfl
      | error fault => exact runOn_unless_folder path fault u

theorem runOn_makeFirst_of_failed (hpath : path ≠ "")
    (hmake : (makeFolder path).runOn w = (.error .notFound, w))
    (hparents : (makeFirst parents).runOn w = (.error fault, v)) :
    (makeFirst (path :: parents)).runOn w = (.error fault, v) := by
  have hempty : path.isEmpty = false := by
    rw [← Bool.not_eq_true, String.isEmpty_iff]
    exact hpath
  rw [makeFirst, hempty]
  simp only [Bool.false_eq_true, if_false]
  rw [runOn_bind, runOn_attempt, hmake]
  simp only
  rw [runOn_bind, hparents]

end FileAction

/-- Nothing but folders stands where names lead down from a place. -/
def IsOpenWay (top : Entry) (place names : List String) : Prop :=
  ∀ front, front <+: names → top.face? (place ++ front) = none ∨ top.face? (place ++ front) = some .folder

/-- The names in front of the first that is too long. -/
def shortNames (names : List String) : List String := names.takeWhile fun n => decide (IsShort n)

/-- The folders that names lead through have been made, and nothing else. -/
structure OpensWay (place names : List String) (w w' : Workspace) : Prop where
  alters : w.Alters (fun _ => False)
    (fun q => ∃ front, front <+: names ∧ front ≠ [] ∧ q = place ++ front) w'
  folder : ∀ front, front <+: names → w'.top.face? (place ++ front) = some .folder

section

variable {w w' v : Workspace} {place names front : List String} {path name : String}

theorem shortNames_eq_self (h : ∀ n ∈ names, IsShort n) : shortNames names = names := by
  unfold shortNames
  induction names with
  | nil => rfl
  | cons n names ih =>
      obtain ⟨hn, hnames⟩ := List.forall_mem_cons.mp h
      rw [List.takeWhile_cons_of_pos (by simpa using hn), ih hnames]

theorem shortNames_append_long {rest : List String} (h : ∀ n ∈ front, IsShort n)
    (hname : ¬ IsShort name) : shortNames (front ++ name :: rest) = front := by
  rw [shortNames, List.takeWhile_append_of_pos (by simpa using h)]
  simp [hname]

theorem shortNames_append_of_short (h : ∀ n ∈ front, IsShort n) (more : List String) :
    front <+: shortNames (front ++ more) := by
  rw [shortNames, List.takeWhile_append_of_pos (by simpa using h)]
  exact List.prefix_append _ _

theorem exists_first_long (h : ¬ ∀ n ∈ names, IsShort n) :
    ∃ before long behind, names = before ++ long :: behind ∧ (∀ n ∈ before, IsShort n)
      ∧ ¬ IsShort long := by
  induction names with
  | nil => exact absurd (by simp) h
  | cons n names ih =>
      by_cases hn : IsShort n
      · obtain ⟨before, long, behind, rfl, hbefore, hlong⟩ :=
          ih fun hall => h (List.forall_mem_cons.mpr ⟨hn, hall⟩)
        exact ⟨n :: before, long, behind, rfl, List.forall_mem_cons.mpr ⟨hn, hbefore⟩, hlong⟩
      · exact ⟨[], n, names, rfl, by simp, hn⟩

/-- Names that are all there already need not be made. -/
theorem OpensWay.refl (h : w.top.face? (place ++ names) = some .folder) :
    OpensWay place names w w where
  alters := .refl _ _ w
  folder := by
    rintro front ⟨more, rfl⟩
    cases more with
    | nil => rwa [List.append_nil] at h
    | cons n more =>
        rw [← List.append_assoc] at h
        have hbelow : w.top.face? (place ++ front ++ n :: more) ≠ none := by
          rw [h]
          simp
        exact face?_of_below hbelow

theorem OpensWay.folders (h : OpensWay place names w w') (q : List String)
    (hq : w.top.face? q = some .folder) : w'.top.face? q = some .folder := by
  rcases h.alters.face q id with hsame | ⟨-, -, hfolder⟩
  · exact hsame.trans hq
  · exact hfolder

theorem OpensWay.isOpenWay {more : List String} (h : OpensWay place names w w')
    (hopen : IsOpenWay w.top place more) : IsOpenWay w'.top place more := by
  intro front hfront
  rcases h.alters.face (place ++ front) id with hsame | ⟨-, -, hfolder⟩
  · rw [hsame]
    exact hopen front hfront
  · exact .inr hfolder

theorem OpensWay.trans {more : List String} (h : OpensWay place names w v)
    (h' : OpensWay place more v w') (hpre : names <+: more) : OpensWay place more w w' where
  alters := (h.alters.mono (fun _ => id) fun _ ⟨front, hfront, hne, hq⟩ =>
    .inr ⟨front, hfront.trans hpre, hne, hq⟩).trans h'.alters
  folder := h'.folder

theorem IsOpenWay.of_prefix (h : IsOpenWay w.top place names) (hfront : front <+: names) :
    IsOpenWay w.top place front := fun inner hinner => h inner (hinner.trans hfront)

/-- On an open way that does not lead to a folder there is a first folder that is missing. -/
theorem IsOpenWay.exists_missing (h : IsOpenWay w.top place names)
    (hplace : w.top.face? place = some .folder) (hend : w.top.face? (place ++ names) ≠ some .folder) :
    ∃ front name rest, names = front ++ name :: rest ∧ w.top.face? (place ++ front) = some .folder
      ∧ w.top.face? (place ++ front ++ [name]) = none := by
  induction names generalizing place with
  | nil => exact absurd (by simpa using hplace) hend
  | cons n names ih =>
      rcases h [n] (by simp) with hnone | hfolder
      · exact ⟨[], n, names, rfl, by simpa using hplace, by simpa using hnone⟩
      · have hinner : IsOpenWay w.top (place ++ [n]) names := fun front hfront => by
          have hopen := h (n :: front) (by simpa using hfront)
          rwa [List.append_cons] at hopen
        obtain ⟨front, m, rest, rfl, hthere, hnone⟩ := ih hinner hfolder (by simpa using hend)
        exact ⟨n :: front, m, rest, rfl, by simpa using hthere, by simpa using hnone⟩

end

namespace FileAction

variable {w w' v : Workspace} {place names front : List String} {path name : String}
variable {parents : List String} {fault : FileFault}

/-- A folder cannot be made if its path leads nowhere. -/
theorem runOn_makeFolder_of_error (h : w.resolve false path = .error fault) :
    (makeFolder path).runOn w = (.error fault, w) := by
  rw [makeFolder, runOn_bind, runOn_resolve, h]

theorem isFolder_of_resolve_error (h : w.resolve true path = .error fault) :
    w.isFolder path = false := by
  unfold Workspace.isFolder Workspace.entry?
  rw [h]

/-- The last folder of a way is made or found, unless its name is too long. -/
theorem exists_makeLast (h : w.Descent place (front ++ [name]) path)
    (hopen : IsOpenWay w.top place (front ++ [name])) (hshort : ∀ n ∈ front, IsShort n)
    (hfolder : w.top.face? (place ++ front) = some .folder)
    (hbytes : path.utf8ByteSize ≤ maxPathBytes) :
    ∃ r v, (makeFolder path).runOn w = (r, v) ∧ r ≠ .error .notFound
      ∧ ∃ w', orFolder path (r, v) = (if IsShort name then .ok () else .error .nameTooLong, w')
        ∧ OpensWay place (shortNames (front ++ [name])) w w' := by
  by_cases hname : IsShort name
  · have hall : ∀ n ∈ front ++ [name], IsShort n := by
      intro n hn
      rcases List.mem_append.mp hn with hn | hn
      · exact hshort n hn
      · exact List.mem_singleton.mp hn ▸ hname
    rw [if_pos hname, shortNames_eq_self hall]
    rcases hopen _ (List.prefix_refl _) with hnone | hthere
    · -- The name is free, so the folder is made.
      rw [← List.append_assoc] at hnone
      have hfree := h.resolve_free hall hfolder hbytes hnone false
      obtain ⟨children, hchildren⟩ := face?_eq_folder_iff.mp hfolder
      have hlookup : children.lookup name = none := by
        rwa [face?_eq_none_iff, get?_child hchildren] at hnone
      have hmade := Workspace.alters_newFolder hchildren hlookup (h.proper name (by simp))
      refine ⟨.ok (), { w with top := Entry.put (place ++ front) name (.folder []) w.top }, ?_,
        by simp, _, rfl, ⟨hmade.mono (fun _ => id) fun q hq => .inr ?_, ?_⟩⟩
      · rw [makeFolder, runOn_bind, runOn_resolve, hfree]
        rfl
      · exact ⟨front ++ [name], List.prefix_refl _, by simp, by rw [hq, List.append_assoc]⟩
      · have hself : (Entry.put (place ++ front) name (.folder []) w.top).face?
            (place ++ (front ++ [name])) = some .folder := by
          have hdrop : (place ++ front ++ [name]).drop ((place ++ front).length + 1) = [] :=
            List.drop_eq_nil_of_le (by simp [Nat.add_assoc])
          rw [← List.append_assoc, face?_put hchildren, if_pos (List.prefix_refl _), hdrop]
          rfl
        exact (OpensWay.refl (w := { w with top := _ }) hself).folder
    · rw [← List.append_assoc] at hthere
      obtain ⟨children, hchildren⟩ := face?_eq_folder_iff.mp hthere
      have htaken := h.resolve_taken hall hfolder hbytes hchildren (by simp)
      refine ⟨.error .exists, w, ?_, by simp, w, ?_, .refl (by rwa [← List.append_assoc])⟩
      · rw [makeFolder, runOn_bind, runOn_resolve, htaken false]
        rfl
      · have hfound : w.isFolder path = true :=
          Workspace.isFolder_eq_true_iff.mpr ⟨_, _, htaken true⟩
        simp only [orFolder, hfound, if_true]
  · have hlong := h.resolve_long hshort hfolder hname
    rw [if_neg hname, shortNames_append_long hshort hname]
    refine ⟨_, w, runOn_makeFolder_of_error (hlong false), by simp, w, ?_, .refl hfolder⟩
    simp only [orFolder, isFolder_of_resolve_error (hlong true), Bool.false_eq_true, if_false]

/-- Where a folder of the way is missing, the path leads nowhere yet. -/
theorem runOn_makeFolder_of_missing (h : w.Descent place (front ++ name :: names) path)
    (hopen : IsOpenWay w.top place front) (hshort : ∀ n ∈ front, IsShort n)
    (hmissing : w.top.face? (place ++ front) ≠ some .folder)
    (hbytes : path.utf8ByteSize ≤ maxPathBytes) :
    (makeFolder path).runOn w = (.error .notFound, w) := by
  obtain ⟨before, first, rest, rfl, hfolder, hnone⟩ := hopen.exists_missing h.folder hmissing
  rw [List.append_assoc, List.cons_append] at h
  exact runOn_makeFolder_of_error (h.resolve_missing (fun n hn => hshort n (by simp [hn])) hfolder
    (hshort first (by simp)) hbytes hnone (by simp))

/-- **Making a folder with its parents** makes all that lead to it, down to the first name that is
too long. -/
theorem exists_makeFirst {fuel : Nat} (hfuel : names.length ≤ fuel + 1)
    (h : w.Descent place names path) (hopen : IsOpenWay w.top place names)
    (hbytes : path.utf8ByteSize ≤ maxPathBytes) :
    ∃ w', (makeFirst (Path.ancestorsFrom fuel path)).runOn w
        = (if ∀ n ∈ names, IsShort n then .ok () else .error .nameTooLong, w')
      ∧ OpensWay place (shortNames names) w w' := by
  induction fuel generalizing names path with
  | zero =>
      obtain ⟨name, rest, rfl⟩ := List.exists_cons_of_ne_nil h.nonempty
      obtain rfl : rest = [] := by simpa using hfuel
      have hfolder := h.folder
      rw [← List.append_nil place] at hfolder
      obtain ⟨r, v, hmake, hr, w', hlast, hopens⟩ :=
        exists_makeLast h hopen (by simp) hfolder hbytes
      refine ⟨w', ?_, hopens⟩
      rw [Path.ancestorsFrom, runOn_makeFirst_of_found h.path_ne_empty hmake hr, hlast]
      simp
  | succ fuel ih =>
      obtain ⟨front, name, rfl⟩ := (List.eq_nil_or_concat names).resolve_left h.nonempty
      rw [List.concat_eq_append] at h hopen hfuel ⊢
      obtain ⟨parents, hparents, hinner⟩ := h.exists_ancestors fuel hbytes
      have hopenFront : IsOpenWay w.top place front := hopen.of_prefix (List.prefix_append _ _)
      have hfuelFront : front.length ≤ fuel + 1 := by simpa using hfuel
      rw [hparents]
      by_cases hfront : ∀ n ∈ front, IsShort n
      · have hall : (∀ n ∈ front ++ [name], IsShort n) ↔ IsShort name := by
          simp only [List.forall_mem_append, List.forall_mem_singleton, and_iff_right hfront]
        simp only [hall]
        by_cases hfolder : w.top.face? (place ++ front) = some .folder
        · obtain ⟨r, v, hmake, hr, w', hlast, hopens⟩ := exists_makeLast h hopen hfront hfolder hbytes
          refine ⟨w', ?_, hopens⟩
          rw [runOn_makeFirst_of_found h.path_ne_empty hmake hr, hlast]
        · -- The parents are made first, and then the folder.
          have hne : front ≠ [] := by
            rintro rfl
            exact hfolder (by simpa using h.folder)
          obtain ⟨parent, rfl, hparent, hshorter⟩ := hinner hne
          obtain ⟨v, hrun, hmade⟩ := ih hfuelFront hparent hopenFront hshorter
          rw [if_pos hfront] at hrun
          rw [shortNames_eq_self hfront] at hmade
          have hmissing := runOn_makeFolder_of_missing h hopenFront hfront hfolder hbytes
          obtain ⟨r, u, hmake, hr, w', hlast, hopens⟩ := exists_makeLast
            (h.stays hmade.alters.terrain hmade.folders) (hmade.isOpenWay hopen) hfront
            (hmade.folder front (List.prefix_refl _)) hbytes
          refine ⟨w', ?_, (hmade.trans hopens (shortNames_append_of_short hfront _))⟩
          rw [runOn_makeFirst_of_missing h.path_ne_empty hmissing hrun, hmake, hlast]
      · obtain ⟨before, long, behind, rfl, hbefore, hlong⟩ := exists_first_long hfront
        have hall : ¬ ∀ n ∈ before ++ long :: behind ++ [name], IsShort n := fun hall =>
          hlong (hall long (by simp))
        rw [if_neg hall]
        rw [List.append_assoc, List.cons_append, shortNames_append_long hbefore hlong]
        rw [List.append_assoc, List.cons_append] at h
        by_cases hfolder : w.top.face? (place ++ before) = some .folder
        · have hblocked := h.resolve_long hbefore hfolder hlong
          refine ⟨w, ?_, .refl hfolder⟩
          rw [runOn_makeFirst_of_found h.path_ne_empty (runOn_makeFolder_of_error (hblocked false))
            (by simp), orFolder, isFolder_of_resolve_error (hblocked true)]
          rfl
        · obtain ⟨parent, rfl, hparent, hshorter⟩ := hinner (by simp)
          obtain ⟨v, hrun, hmade⟩ := ih hfuelFront hparent hopenFront hshorter
          rw [if_neg hfront] at hrun
          rw [shortNames_append_long hbefore hlong] at hmade
          have hopenBefore := hopenFront.of_prefix (List.prefix_append _ _)
          refine ⟨v, ?_, hmade⟩
          exact runOn_makeFirst_of_failed h.path_ne_empty
            (runOn_makeFolder_of_missing h hopenBefore hbefore hfolder hbytes) hrun

/-- Making the folder of a path that goes down. -/
theorem exists_makeFolders (h : w.Descent place names path) (hopen : IsOpenWay w.top place names)
    (hbytes : path.utf8ByteSize ≤ maxPathBytes) :
    ∃ w', (makeFolders path).runOn w
        = (if ∀ n ∈ names, IsShort n then .ok () else .error .nameTooLong, w')
      ∧ OpensWay place (shortNames names) w w' :=
  exists_makeFirst h.length_le h hopen hbytes

/-- Where the folder is there already, nothing is made. -/
theorem runOn_makeFolders_of_folder (h : w.Descent place names path)
    (hbytes : path.utf8ByteSize ≤ maxPathBytes) (hshort : ∀ n ∈ names, IsShort n)
    (hfolder : w.top.face? (place ++ names) = some .folder) :
    (makeFolders path).runOn w = (.ok (), w) := by
  obtain ⟨parents, hparents⟩ := Path.exists_ancestors path
  obtain ⟨front, name, rfl⟩ := (List.eq_nil_or_concat names).resolve_left h.nonempty
  rw [List.concat_eq_append] at h hshort hfolder
  have habove := (OpensWay.refl hfolder).folder front (List.prefix_append _ _)
  obtain ⟨children, hchildren⟩ := face?_eq_folder_iff.mp hfolder
  rw [← List.append_assoc] at hchildren
  have htaken := h.resolve_taken hshort habove hbytes hchildren (by simp)
  have hmake : (makeFolder path).runOn w = (.error .exists, w) := by
    rw [makeFolder, runOn_bind, runOn_resolve, htaken false]
    rfl
  have hfound : w.isFolder path = true := Workspace.isFolder_eq_true_iff.mpr ⟨_, _, htaken true⟩
  rw [makeFolders, hparents, runOn_makeFirst_of_found h.path_ne_empty hmake (by simp)]
  simp only [orFolder, hfound, if_true]

end FileAction

/-! ## Files -/

namespace Path

variable {way : Way} {names : List String} {folder path name : String}

/-- A path that a file system takes: neither it nor a name in it is too long. -/
structure IsUsable (path : String) : Prop where
  nul : '\x00' ∉ path.toList
  bytes : path.utf8ByteSize ≤ maxPathBytes
  names : ∀ n ∈ parts path, IsShort n

instance (path : String) : Decidable (IsUsable path) :=
  decidable_of_iff ('\x00' ∉ path.toList ∧ path.utf8ByteSize ≤ maxPathBytes
      ∧ ∀ n ∈ parts path, IsShort n)
    ⟨fun h => ⟨h.1, h.2.1, h.2.2⟩, fun h => ⟨h.1, h.2, h.3⟩⟩

/-- What stands before a slash of a usable path is usable. -/
theorem IsUsable.before_slash (h : IsUsable (folder ++ "/" ++ path)) : IsUsable folder where
  nul hmem := h.nul (by simp [String.toList_append, hmem])
  bytes := by
    have hbytes := h.bytes
    rw [String.utf8ByteSize_append, String.utf8ByteSize_append] at hbytes
    omega
  names n hn := h.names n (by simp [parts_append_slash, hn])

/-- Joining goes on behind names. -/
theorem join_join (hname : ∀ n ∈ parts name, ProperName n) (hpath : isAbsolute path = false)
    (folder : String) : join (join folder name) path = join folder (name ++ "/" ++ path) := by
  have habsolute : isAbsolute name = false := not_isAbsolute_of_proper hname
  have hne : name ≠ "" := by
    rintro rfl
    exact (hname "" (by simp [parts_empty])).ne_empty rfl
  have hends : ∀ front : String, Text.endsWith '/' (front ++ name).toList = false := by
    intro front
    obtain ⟨before, last, hlist⟩ := (List.eq_nil_or_concat name.toList).resolve_left fun hnil =>
      hne (String.toList_inj.mp (by simpa using hnil))
    have hlast : last ≠ '/' := by
      rintro rfl
      have hslash : name = String.ofList before ++ "/" ++ "" := by
        rw [← String.toList_inj, hlist]
        simp
      exact (hname "" (by rw [hslash, parts_append_slash, parts_empty]; simp)).ne_empty rfl
    rw [Text.endsWith, String.toList_append, hlist]
    simp [hlast]
  have hempty : ∀ front : String, (front ++ name).isEmpty = false := by
    intro front
    rw [← Bool.not_eq_true, String.isEmpty_iff]
    exact fun h => hne (String.append_eq_empty_iff.mp h).2
  have hlast : ∀ front : String, join (front ++ name) path = front ++ name ++ "/" ++ path := by
    intro front
    rw [join, hpath, hempty, hends]
    rfl
  have hinner : isAbsolute (name ++ "/" ++ path) = false := by
    rw [String.append_assoc, isAbsolute_append hne, habsolute]
  by_cases hfolder : folder.isEmpty = true
  · have hsame : ∀ path, join folder path = path := fun path => by
      rw [join, hfolder, Bool.or_true, if_pos rfl]
    rw [hsame, hsame]
    exact hlast ""
  · have hfirst : ∀ path, isAbsolute path = false → join folder path
        = (if Text.endsWith '/' folder.toList then folder else folder ++ "/") ++ path := by
      intro path hpath
      rw [join, hpath, Bool.false_or, if_neg hfolder]
      split <;> rfl
    rw [hfirst name habsolute, hfirst _ hinner, hlast, String.append_assoc, String.append_assoc,
      String.append_assoc]

end Path

namespace Workspace

variable {w w' : Workspace} {place names front : List String} {path name : String}
variable {follow : Bool}

/-- A path that goes down and is not too long. -/
structure Reaches (w : Workspace) (place names : List String) (path : String) : Prop
    extends w.Descent place names path where
  short : ∀ n ∈ names, IsShort n
  bytes : path.utf8ByteSize ≤ maxPathBytes

namespace Reaches

variable (h : w.Reaches place names path)
include h

theorem stays (hterrain : w'.terrain = w.terrain)
    (hfolders : ∀ q, w.top.face? q = some .folder → w'.top.face? q = some .folder) :
    w'.Reaches place names path :=
  ⟨h.toDescent.stays hterrain hfolders, h.short, h.bytes⟩

/-- A path leads to what is there, unless that is a link. -/
theorem resolve {entry : Entry} (hentry : w.top.get? (place ++ names) = some entry)
    (hlink : ∀ target, entry ≠ .link target) :
    w.resolve follow path = .ok (.taken (place ++ names) entry) := by
  obtain ⟨front, name, rfl⟩ := (List.eq_nil_or_concat names).resolve_left h.nonempty
  rw [List.concat_eq_append] at h hentry ⊢
  rw [← List.append_assoc] at hentry ⊢
  have hthere : w.top.face? (place ++ front ++ [name]) ≠ none := by
    rw [face?, hentry]
    simp
  exact h.resolve_taken h.short (face?_of_below hthere) h.bytes hentry hlink follow

theorem isFolder (hfolder : w.top.face? (place ++ names) = some .folder) :
    w.isFolder path = true := by
  obtain ⟨children, hchildren⟩ := face?_eq_folder_iff.mp hfolder
  exact isFolder_eq_true_iff.mpr ⟨_, _, h.resolve hchildren (by simp)⟩

/-- A path on whose open way something is missing leads to nothing. -/
theorem exists?_eq_false (hopen : IsOpenWay w.top place names)
    (hmissing : w.top.face? (place ++ names) = none) : w.exists? path = false := by
  obtain ⟨front, name, rest, rfl, hfolder, hnone⟩ :=
    hopen.exists_missing h.folder (by rw [hmissing]; simp)
  have hfront : ∀ n ∈ front, IsShort n := fun n hn => h.short n (by simp [hn])
  rw [exists?, entry?]
  cases rest with
  | nil => rw [h.resolve_free h.short hfolder h.bytes hnone]; rfl
  | cons n rest =>
      rw [h.resolve_missing hfront hfolder (h.short name (by simp)) h.bytes hnone (by simp)]
      rfl

end Reaches

/-- A path that is not followed to its end leads to what is there, be it a link. -/
theorem Reaches.resolve_itself {entry : Entry} (h : w.Reaches place (front ++ [name]) path)
    (hentry : w.top.get? (place ++ front ++ [name]) = some entry) :
    w.resolve false path = .ok (.taken (place ++ front ++ [name]) entry) := by
  have hthere : w.top.face? (place ++ front ++ [name]) ≠ none := by
    rw [face?, hentry]
    simp
  have hfolder := face?_of_below hthere
  cases entry with
  | link target =>
      obtain ⟨children, hchildren⟩ := face?_eq_folder_iff.mp hfolder
      obtain ⟨fuel, more, -, hmore, hwalk⟩ :=
        h.exists_walk (fun n hn => h.short n (by simp [hn])) hchildren
      obtain rfl := hmore rfl
      have hname := h.proper name (by simp)
      have hshort : IsShort name := h.short name (by simp)
      rw [get?_child hchildren] at hentry
      rw [hwalk, if_neg (Nat.not_lt.mpr h.bytes)]
      exact walk_lastLink hchildren hname.not_blank hname.ne_dots (Nat.not_lt.mpr hshort) hentry rfl
  | file content => exact h.resolve_taken h.short hfolder h.bytes hentry (by simp) false
  | folder children => exact h.resolve_taken h.short hfolder h.bytes hentry (by simp) false

/-- The parent of a path that can be reached can be reached. -/
theorem Reaches.exists_parent (h : w.Reaches place (front ++ [name]) path) (hne : front ≠ []) :
    ∃ parent, Path.parent? path = some parent ∧ w.Reaches place front parent := by
  obtain ⟨way, hleads, hpath⟩ := h.descends
  obtain ⟨parent, hparent, hdescends, hprefix⟩ := hpath.exists_parent hne
  refine ⟨parent, hparent, ⟨⟨way, hleads, hdescends⟩, fun hmem => h.nul (List.IsPrefix.subset hprefix hmem)⟩,
    fun n hn => h.short n (by simp [hn]), ?_⟩
  exact Nat.le_trans (Path.utf8ByteSize_le_of_prefix hprefix) h.bytes

end Workspace

namespace FileAction

variable {w w' : Workspace} {place names front : List String} {path name : String}
variable {content : ByteArray}

/-- A file that is there can be read. -/
theorem runOn_readBytes (h : w.Reaches place names path)
    (hfile : w.top.face? (place ++ names) = some (.file content)) :
    (readBytes path).runOn w = (.ok content, w) := by
  rw [readBytes, runOn_bind, runOn_resolve, h.resolve (face?_eq_file_iff.mp hfile) (by simp)]
  rfl

theorem runOn_readText {text : String} (h : w.Reaches place names path)
    (hfile : w.top.face? (place ++ names) = some (.file text.toUTF8)) :
    (readText path).runOn w = (.ok text, w) := by
  rw [readText, runOn_bind, runOn_readBytes h hfile]
  simp only [Text.fromUTF8?_toUTF8]
  rfl

/-- A folder that is there can be listed. -/
theorem runOn_listFolder {children : List (String × Entry)} (h : w.Reaches place names path)
    (hfolder : w.top.get? (place ++ names) = some (.folder children)) :
    (listFolder path).runOn w = (.ok (children.map fun child => (child.1, child.2.kind)), w) := by
  rw [listFolder, runOn_bind, runOn_resolve, h.resolve hfolder (by simp)]
  rfl

/-- A path leads to a name in a folder that is there, unless something other than a file has the
name. -/
theorem exists_leadsTo (h : w.Reaches place (front ++ [name]) path)
    (hfolder : w.top.face? (place ++ front) = some .folder)
    (hplace : w.top.face? (place ++ front ++ [name]) = none
      ∨ ∃ before, w.top.face? (place ++ front ++ [name]) = some (.file before)) :
    ∃ spot, w.resolve true path = .ok spot ∧ Workspace.LeadsTo (place ++ front) name spot := by
  rcases hplace with hnone | ⟨before, hfile⟩
  · exact ⟨_, h.resolve_free h.short hfolder h.bytes hnone true, .inr rfl⟩
  · have hentry := face?_eq_file_iff.mp hfile
    exact ⟨_, h.resolve_taken h.short hfolder h.bytes hentry (by simp) true, .inl ⟨before, rfl⟩⟩

/-- A path to a file and a path to another place do not lead to one entry. -/
theorem isSame_eq_false {source : String} {origin : List String} {content : ByteArray}
    (hsource : w.Reaches place origin source)
    (hfile : w.top.face? (place ++ origin) = some (.file content))
    (h : w.Reaches place (front ++ [name]) path)
    (hfolder : w.top.face? (place ++ front) = some .folder)
    (hplace : w.top.face? (place ++ front ++ [name]) = none
      ∨ ∃ before, w.top.face? (place ++ front ++ [name]) = some (.file before))
    (hne : origin ≠ front ++ [name]) : w.isSame source path = false := by
  have hthere : w.resolve true source = .ok (.taken (place ++ origin) (.file content)) :=
    hsource.resolve (face?_eq_file_iff.mp hfile) (by simp)
  obtain ⟨spot, hresolve, hspot⟩ := exists_leadsTo h hfolder hplace
  have haim := Workspace.aim_of_resolve hresolve
  have hspot' : spot.place = place ++ (front ++ [name]) := by
    rcases hspot with ⟨before, rfl⟩ | rfl <;> simp [Spot.place]
  rw [hspot'] at haim
  refine Workspace.isSame_eq_false (Workspace.aim_of_resolve hthere) haim fun heq => hne ?_
  exact List.append_cancel_left heq

/-- A file can be written into a folder that is there, unless something else is in its place. -/
theorem exists_writeBytes (h : w.Reaches place (front ++ [name]) path)
    (hfolder : w.top.face? (place ++ front) = some .folder)
    (hplace : w.top.face? (place ++ front ++ [name]) = none
      ∨ ∃ before, w.top.face? (place ++ front ++ [name]) = some (.file before))
    (content : ByteArray) :
    ∃ w', (writeBytes path content).runOn w = (.ok (), w')
      ∧ w.Alters (· = place ++ front ++ [name]) (fun _ => False) w'
      ∧ w'.top.face? (place ++ front ++ [name]) = some (.file content) := by
  obtain ⟨spot, hresolve, hspot⟩ := exists_leadsTo h hfolder hplace
  have hopen := hspot.isOpen (Workspace.holds_of_walk (Workspace.walk_of_resolve hresolve))
  refine ⟨w.store (place ++ front) name content, ?_,
    Workspace.alters_store hopen (h.proper name (by simp)) content,
    face?_eq_file_iff.mpr (get?_put_self hopen _)⟩
  rw [writeBytes, runOn_bind, runOn_resolve, hresolve]
  rcases hspot with ⟨before, rfl⟩ | rfl
  · exact runOn_putAt _ _ _ _
  · rfl

/-- What is no folder can be moved to any name that is not that of a folder. -/
theorem exists_renameFile {source : String} {back : List String} {n : String} {entry : Entry}
    (hsource : w.Reaches place (back ++ [n]) source) (h : w.Reaches place (front ++ [name]) path)
    (hentry : w.top.get? (place ++ back ++ [n]) = some entry) (hne : back ++ [n] ≠ front ++ [name])
    (hfolder : w.top.face? (place ++ front) = some .folder)
    (hplace : w.top.face? (place ++ front ++ [name]) ≠ some .folder) :
    ∃ w', (renameFile source path).runOn w = (.ok (), w') := by
  rw [renameFile, runOn_bind, runOn_resolve, hsource.resolve_itself hentry]
  simp only
  rw [runOn_bind, runOn_resolve]
  have hplaces : ¬ place ++ front ++ [name] = place ++ back ++ [n] := by
    rw [List.append_assoc, List.append_assoc]
    exact fun heq => hne (List.append_cancel_left heq).symm
  cases hold : w.top.get? (place ++ front ++ [name]) with
  | none =>
      rw [h.resolve_free h.short hfolder h.bytes (face?_eq_none_iff.mpr hold)]
      simp only
      rw [runOn_bind, runOn_eraseAt]
      exact ⟨_, rfl⟩
  | some old =>
      rw [h.resolve_itself hold]
      cases old with
      | folder children => exact absurd (face?_eq_folder_iff.mpr ⟨children, hold⟩) hplace
      | file before =>
          simp only [if_neg hplaces]
          rw [runOn_bind, runOn_eraseAt]
          exact ⟨_, runOn_putAt _ _ _ _⟩
      | link target =>
          simp only [if_neg hplaces]
          rw [runOn_bind, runOn_eraseAt]
          exact ⟨_, runOn_putAt _ _ _ _⟩

end FileAction

end CanvasFlutter
