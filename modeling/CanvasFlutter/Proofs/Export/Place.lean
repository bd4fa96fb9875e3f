import CanvasFlutter.Export.Room
import CanvasFlutter.Proofs.PageSource.Project
import CanvasFlutter.Proofs.Workspace.Aim
import CanvasFlutter.Proofs.Workspace.Evaluate

namespace CanvasFlutter

/-!
# `CanvasFlutter.Proofs.Export.Place` — where the parts of an export are

A room's code, the stem of a configuration and the slugs of pages all become names in paths. None
of them can leave its folder, so in a scratch folder without links every path of an export points
where its names say.

## Contents
- **Names.** `Path.parts_intercalate`; `Config.properName_exportName`, `Route.proper_file`.
- **Plain folders.** `Terrain.IsPlain`, a folder without links below it, and `Terrain.IsBare`.
- **Exports.** `Config.Owns`: the places that belong to a room's export; `Config.Housed`, `Settled`
  and `Grounded`: its names are names and there are no links in its staging folder, in the place of
  its unfinished archive, in the scratch folder, so its paths point where they should.
-/

open Entry Package

/-! ## Names -/

/-- A name that begins with a letter, say, and has no slash. -/
theorem properName_of_head {name : String} {c : Char} {rest : Text} (hname : name.toList = c :: rest)
    (hdot : c ≠ '.') (hslash : '/' ∉ name.toList) : ProperName name := by
  have hne : ∀ other : String, other.toList.head? ≠ some c → name ≠ other := by
    rintro other hother rfl
    rw [hname] at hother
    exact hother rfl
  have hdot' : '.' ≠ c := hdot.symm
  exact ⟨hne "" (by simp), hne "." (by simpa using hdot'), hne ".." (by simpa using hdot'), hslash⟩

namespace Path

variable {names : List String}

theorem parts_intercalate (h : ∀ n ∈ names, '/' ∉ n.toList) (hne : names ≠ []) :
    parts ("/".intercalate names) = names := by
  have hslash : "/".toList = ['/'] := rfl
  rw [parts, String.toList_intercalate, hslash, List.splitOn_intercalate _ (by simpa using h)
    (by simpa using hne), List.map_map]
  simp

theorem parts_intercalate_proper (h : ∀ n ∈ names, ProperName n) (hne : names ≠ []) :
    parts ("/".intercalate names) = names :=
  parts_intercalate (fun n hn => (h n hn).no_slash) hne

/-- More text behind the last name of a joined path. -/
theorem join_append (folder : String) {path : String} (hpath : path ≠ "") (more : String) :
    join folder path ++ more = join folder (path ++ more) := by
  unfold join
  rw [isAbsolute_append hpath]
  split
  · rfl
  · split <;> simp only [String.append_assoc]

theorem suffix_join (folder path : String) : path.toList <:+ (join folder path).toList := by
  unfold join
  split
  · exact List.suffix_refl _
  · split
    · rw [String.toList_append]
      exact List.suffix_append _ _
    · rw [String.toList_append]
      exact List.suffix_append _ _

theorem join_ne_empty (folder : String) {path : String} (h : path ≠ "") : join folder path ≠ "" := by
  unfold join
  split
  · exact h
  · split <;> simp [String.append_eq_empty_iff, h]

/-- A path that ends in a name has no slashes at its end. -/
theorem dropSlashes_join (folder : String) {name : String} (hname : ProperName name) :
    dropSlashes (join folder name) = join folder name := by
  obtain ⟨front, hfront⟩ := suffix_join folder name
  obtain ⟨before, last, hlast⟩ := (List.eq_nil_or_concat name.toList).resolve_left fun hnil =>
    hname.ne_empty (String.toList_inj.mp hnil)
  have hslash : last ≠ '/' := fun heq => hname.no_slash (by simp [hlast, heq])
  rw [dropSlashes, ← hfront, hlast]
  simp only [List.concat_eq_append, List.reverse_append, List.reverse_singleton, List.cons_append]
  rw [List.dropWhile_cons_of_neg (by simpa using hslash), ← String.toList_inj, ← hfront, hlast]
  simp

end Path

/-- The last name of a path in a folder is the name. -/
theorem FileAction.lastName_join (folder : String) {name : String} (hname : ProperName name) :
    FileAction.lastName (Path.join folder name) = name := by
  have hparts := Path.parts_proper hname
  have hproper : ∀ n ∈ Path.parts name, ProperName n := by simpa [hparts] using hname
  obtain ⟨front, hjoin, -⟩ := Path.exists_parts_join folder (Path.not_isAbsolute_of_proper hproper)
  rw [FileAction.lastName, hjoin, hparts]
  simp [hname.ne_empty]

/-- A text that may be the code of a room; it may be empty. -/
def IsRoomText (room : String) : Prop := ∀ c ∈ room.toList, Text.isAsciiWord c ∨ c = '-'

instance (room : String) : Decidable (IsRoomText room) :=
  List.decidableBAll _ room.toList

theorem isRoomText_of_isRoomCode {room : String} (h : isRoomCode room = true) :
    IsRoomText room := by
  rw [isRoomCode, Bool.and_eq_true, List.all_eq_true] at h
  intro c hc
  simpa using h.2 c hc

/-- The file of a room's canvas is a name. -/
theorem proper_canvasFile {room : String} (hroom : isRoomCode room = true) :
    ProperName (room ++ ".json") := by
  have htext := isRoomText_of_isRoomCode hroom
  rw [isRoomCode, Bool.and_eq_true, Bool.not_eq_true', ← Bool.not_eq_true, String.isEmpty_iff] at hroom
  obtain ⟨first, rest, hlist⟩ := List.exists_cons_of_ne_nil (l := room.toList) fun hnil =>
    hroom.1 (String.toList_inj.mp (by simpa using hnil))
  have hslash : '/' ∉ room.toList := fun hmem => absurd (htext _ hmem) (by decide)
  have hname : (room ++ ".json").toList = first :: (rest ++ ".json".toList) := by simp [hlist]
  refine properName_of_head hname ?_ ?_
  · rintro rfl
    exact absurd (htext '.' (by simp [hlist])) (by decide)
  · simp [hslash]

namespace Config

variable {c : Config} {room : String}

/-- The stem of a configuration that can be used begins with a small letter and has no slash. -/
theorem exists_stem (h : c.fault? = none) : ∃ first rest, c.stem.toList = first :: rest
    ∧ isSmall first = true ∧ '/' ∉ c.stem.toList := by
  have hstem : stemFault? c.stem = none := by
    rw [fault?] at h
    cases hfault : stemFault? c.stem with
    | none => rfl
    | some fault => simp [hfault] at h
  rw [stemFault?] at hstem
  split at hstem
  · simp at hstem
  · next first rest heq =>
      split at hstem
      · next hsmall =>
          refine ⟨first, rest, heq, hsmall, fun hslash => ?_⟩
          rw [Option.map_eq_none_iff, List.find?_eq_none] at hstem
          exact absurd (hstem '/' (heq ▸ hslash)) (by decide)
      · simp at hstem

/-- The name of an export is a name, whatever ending without a slash is put behind it. -/
theorem properName_exportName (hc : c.fault? = none) (hroom : IsRoomText room) {ending : String}
    (hending : '/' ∉ ending.toList) : ProperName (c.exportName room ++ ending) := by
  obtain ⟨first, rest, hstem, hsmall, hslash⟩ := exists_stem hc
  have hroomSlash : '/' ∉ room.toList := fun hmem => absurd (hroom _ hmem) (by decide)
  have hlist : (c.exportName room ++ ending).toList
      = c.stem.toList ++ ('-' :: (room.toList ++ ending.toList)) := by
    unfold exportName
    simp
  have hhead : (c.exportName room ++ ending).toList
      = first :: (rest ++ '-' :: (room.toList ++ ending.toList)) := by
    rw [hlist, hstem, List.cons_append]
  refine properName_of_head hhead ?_ ?_
  · rintro rfl
    exact absurd hsmall (by decide)
  · rw [hlist]
    simp [hslash, hroomSlash, hending]

/-- Every configuration that is read can be used. -/
theorem fault?_of_parse {path text : String} (h : parse path text = .ok c) : c.fault? = none := by
  rw [parse] at h
  split at h
  · simp at h
  · next config hconfig =>
      split at h
      · simp at h
      · next hfault =>
          obtain rfl := Except.ok.inj h
          exact hfault

theorem fault?_of_load {path : String} {w w' : Workspace} (h : (load path).runOn w = (.ok c, w')) :
    c.fault? = none := by
  obtain ⟨text, between, -, hparse⟩ := FileAction.runOn_bind_eq_ok h
  cases hresult : parse path text with
  | ok config =>
      rw [hresult] at hparse
      obtain rfl := Except.ok.inj (Prod.mk.inj hparse).1
      exact fault?_of_parse hresult
  | error error =>
      rw [hresult] at hparse
      cases congrArg Prod.fst hparse

theorem fault?_of_loadOrDefault {path : Option String} {w w' : Workspace}
    (h : (loadOrDefault path).runOn w = (.ok c, w')) : c.fault? = none := by
  cases path with
  | some path => exact fault?_of_load h
  | none =>
      obtain ⟨found, between, -, hrest⟩ := FileAction.runOn_bind_eq_ok h
      cases found with
      | true => exact fault?_of_load hrest
      | false =>
          obtain rfl := Except.ok.inj (Prod.mk.inj hrest).1
          decide +kernel

end Config

namespace Route

theorem baseSlug_ne_nil (name : Text) (index : Nat) : baseSlug name index ≠ [] := by
  rw [baseSlug]
  split
  · simp
  · next h => simpa using h

theorem slug_ne_empty {pages : List Page} {r : Route} (h : r ∈ planRoutes pages) : r.slug ≠ "" := by
  obtain ⟨i, hi⟩ := List.mem_iff_getElem?.mp h
  obtain ⟨name, number, -, rfl⟩ := exists_candidate hi
  intro hempty
  have hlist := congrArg String.toList hempty
  rw [toList_slug_candidate, String.toList_empty, List.append_eq_nil_iff] at hlist
  exact baseSlug_ne_nil _ _ hlist.1

/-- The file of a page, name by name. -/
def fileNames (r : Route) : List String := ["lib", "pages", r.slug, r.slug ++ "_page.dart"]

theorem file_eq (r : Route) : r.file = "/".intercalate r.fileNames := by
  rw [← String.toList_inj, toList_file, String.toList_intercalate]
  simp [fileNames, fileName]

theorem proper_fileNames {pages : List Page} {r : Route} (h : r ∈ planRoutes pages) :
    ∀ n ∈ r.fileNames, ProperName n := by
  have hslug := (named_of_mem_planRoutes h).slug
  have hne : r.slug.toList ≠ [] := fun heq => slug_ne_empty h (String.toList_inj.mp (by simpa using heq))
  obtain ⟨first, rest, hlist⟩ := List.exists_cons_of_ne_nil hne
  have hdot : first ≠ '.' := by
    rintro rfl
    exact absurd (hslug '.' (by simp [hlist])) (by decide)
  have hslash : '/' ∉ r.slug.toList := fun hmem => absurd (hslug _ hmem) (by decide)
  have hfile : '/' ∉ (r.slug ++ "_page.dart").toList := by
    rw [String.toList_append, List.mem_append, not_or]
    exact ⟨hslash, by decide⟩
  have hfolders : ProperName "lib" ∧ ProperName "pages" := by decide
  have hown : ProperName r.slug := properName_of_head hlist hdot hslash
  have hhead : (r.slug ++ "_page.dart").toList = first :: (rest ++ "_page.dart".toList) := by
    rw [String.toList_append, hlist, List.cons_append]
  have hlast : ProperName (r.slug ++ "_page.dart") := properName_of_head hhead hdot hfile
  simp only [fileNames, List.forall_mem_cons]
  exact ⟨hfolders.1, hfolders.2, hown, hlast, by simp⟩

theorem parts_file {pages : List Page} {r : Route} (h : r ∈ planRoutes pages) :
    Path.parts r.file = r.fileNames := by
  rw [file_eq, Path.parts_intercalate_proper (proper_fileNames h) (by simp [fileNames])]

end Route

/-- The routes file, name by name. -/
def Package.routesNames : List String := ["lib", "app", "routes.dart"]

theorem Package.parts_routesFile : Path.parts routesFile = routesNames := by decide +kernel

theorem Package.proper_routesNames : ∀ n ∈ routesNames, ProperName n := by decide

/-! ## Plain folders -/

/-- There are no links at all where there are none in the tree. -/
theorem Workspace.links_of_isLinkless {w : Workspace} (h : w.top.isLinkless = true)
    (q : List String) : w.terrain.links q = none := by
  show w.link? q = none
  cases hlink : w.link? q with
  | none => rfl
  | some target =>
      exact absurd (link?_eq_some_iff.mp hlink) (face?_ne_link_of_isLinkless h q target)

namespace Terrain

variable {t : Terrain} {folder path : String} {place names : List String} {follow : Bool}

/-- A name that is no link points at itself in the working folder. -/
theorem aim_name {name : String} (hname : ProperName name)
    (hlink : t.links (t.here ++ [name]) = none) :
    t.aim follow name = some (t.here ++ [name]) := by
  have hparts := Path.parts_proper hname
  have hproper : ∀ n ∈ Path.parts name, ProperName n := by simpa [hparts] using hname
  have hstart : t.start name = t.here := by
    rw [start, Path.not_isAbsolute_of_proper hproper]
    rfl
  rw [aim, hstart, aimFrom_proper hproper, hparts]
  intro front hfront hne
  rw [hparts] at hfront
  obtain ⟨n, more, rfl⟩ := List.exists_cons_of_ne_nil hne
  obtain ⟨rfl, rfl⟩ : n = name ∧ more = [] := by simpa using hfront
  exact hlink

/-- A folder, if the path points at one, that has no links below it. -/
def IsPlain (t : Terrain) (folder : String) : Prop :=
  ∀ place, t.aim true folder = some place → ∀ n more, t.links (place ++ n :: more) = none

/-- Two folders, if paths point at them, of which neither is in the other. -/
def IsBeside (t : Terrain) (folder other : String) : Prop :=
  ∀ S T, t.aim true folder = some S → t.aim true other = some T → ¬ S <+: T ∧ ¬ T <+: S

/-- A plain folder whose path does not end at a link. -/
structure IsBare (t : Terrain) (folder : String) : Prop where
  plain : t.IsPlain folder
  ending : ∀ q, t.aim false folder = some q → t.links q = none

/-- Below where the path of a bare folder ends, links followed or not, there are no links. -/
theorem IsBare.links_eq_none (h : t.IsBare folder) (hplace : t.aim false folder = some place)
    {q : List String} (hq : place <+: q) : t.aim true folder = some place ∧ t.links q = none := by
  have hend := h.ending place hplace
  have htrue := aimFrom_follow hplace hend
  refine ⟨htrue, ?_⟩
  obtain ⟨more, rfl⟩ := hq
  cases more with
  | nil => rwa [List.append_nil]
  | cons n more => exact h.plain place htrue n more

theorem IsPlain.isClear (h : t.IsPlain folder) (hplace : t.aim true folder = some place) :
    t.IsClear place names := by
  intro front _ hne
  obtain ⟨n, more, rfl⟩ := List.exists_cons_of_ne_nil hne
  exact h place hplace n more

/-- Below a plain folder a path points where its names say. -/
theorem IsPlain.aim_join (h : t.IsPlain folder) (hpath : ∀ n ∈ Path.parts path, ProperName n) :
    t.aim follow (Path.join folder path) = (t.aim true folder).map (· ++ Path.parts path) :=
  Terrain.aim_join hpath fun _ hplace => h.isClear hplace

theorem IsPlain.join (h : t.IsPlain folder) (hpath : ∀ n ∈ Path.parts path, ProperName n) :
    t.IsPlain (Path.join folder path) := by
  intro place hplace n more
  rw [h.aim_join hpath] at hplace
  obtain ⟨front, hfront, rfl⟩ := Option.map_eq_some_iff.mp hplace
  have hbelow := h front hfront
  cases hparts : Path.parts path with
  | nil => simpa using hbelow n more
  | cons first rest => simpa using hbelow first (rest ++ n :: more)

theorem IsPlain.leadsThrough_join (h : t.IsPlain folder)
    (hpath : ∀ n ∈ Path.parts path, ProperName n) {q : List String}
    (hq : t.LeadsThrough (Path.join folder path) q) :
    t.LeadsThrough folder q ∨ ∃ place front, t.aim true folder = some place
      ∧ front <+: Path.parts path ∧ front ≠ [] ∧ q = place ++ front :=
  Terrain.leadsThrough_join hpath (fun _ hplace => h.isClear hplace) hq

/-- A given folder is plain if there are no links in it. -/
theorem isPlain_of_isLinkless {w : Workspace} (hplace : w.terrain.aim true folder = some place)
    (h : ∀ entry, w.top.get? place = some entry → entry.isLinkless = true) :
    w.terrain.IsPlain folder := by
  intro q hq n more
  obtain rfl := Option.some.inj (hplace.symm.trans hq)
  show w.link? (place ++ n :: more) = none
  cases hlink : w.link? (place ++ n :: more) with
  | none => rfl
  | some target =>
      rw [Workspace.link?_eq_some_iff, face?, get?_append] at hlink
      cases hentry : w.top.get? place with
      | none => simp [hentry] at hlink
      | some entry =>
          rw [hentry] at hlink
          exact absurd hlink (face?_ne_link_of_isLinkless (h entry hentry) (n :: more) target)

theorem leadsThrough_parent {parent : String} (h : Path.parent? path = some parent)
    {q : List String} (hq : t.LeadsThrough parent q) : t.LeadsThrough path q := by
  obtain ⟨⟨last, hsteps, -, -⟩, habsolute⟩ := Path.steps_parent h
  exact leadsThrough_of_steps ⟨last, hsteps.symm⟩ habsolute hq

/-- The parent of a name in a folder leads no further than the folder. -/
theorem leadsThrough_of_parent_join {name parent : String} (hname : ProperName name)
    (h : Path.parent? (Path.join folder name) = some parent) {q : List String}
    (hq : t.LeadsThrough parent q) : t.LeadsThrough folder q := by
  have hparts := Path.parts_proper hname
  have hproper : ∀ n ∈ Path.parts name, ProperName n := by simpa [hparts] using hname
  obtain ⟨-, -, -, hstart⟩ :=
    Path.exists_parts_join folder (Path.not_isAbsolute_of_proper hproper)
  obtain ⟨⟨last, hsteps, -, hlast⟩, habsolute⟩ := Path.steps_parent h
  rw [Path.steps_join folder hproper, hparts] at hsteps hlast
  refine leadsThrough_of_steps ?_ (habsolute.trans hstart) hq
  refine (List.prefix_concat_iff.mp ⟨last, hsteps.symm⟩).resolve_left fun heq => ?_
  rw [← heq, List.self_eq_append_right] at hsteps
  exact hlast (by simp) hsteps

end Terrain

/-! ## Exports -/

namespace Config

variable {c : Config} {room : String} {t : Terrain} {follow : Bool}

/-- A place in the scratch folder, given by the names that lead to it from there. -/
def InScratch (c : Config) (t : Terrain) (names q : List String) : Prop :=
  ∃ place, t.aim true c.scratchFolder = some place ∧ q = place ++ names

theorem InScratch.names_inj {names names' q : List String} (h : c.InScratch t names q)
    (h' : c.InScratch t names' q) : names = names' := by
  obtain ⟨place, hplace, rfl⟩ := h
  obtain ⟨place', hplace', heq⟩ := h'
  obtain rfl := Option.some.inj (hplace.symm.trans hplace')
  exact List.append_cancel_left heq

/-- Names with endings of different length differ. -/
theorem append_ne_append (name : String) {ending ending' : String}
    (h : ending.length ≠ ending'.length) : name ++ ending ≠ name ++ ending' := by
  intro heq
  have hlength := congrArg String.length heq
  rw [String.length_append, String.length_append] at hlength
  omega

/-- Names with an ending of their own are not in the staging folder. -/
theorem ne_staging {ending : String} {S q : List String} (hending : ending ≠ "") :
    S ++ [c.exportName room ++ ending] ≠ S ++ [c.exportName room] ++ q := by
  intro heq
  rw [List.append_assoc] at heq
  have hname := (List.cons.inj (List.append_cancel_left heq)).1
  have hlength : ending.length ≠ "".length := by simpa using hending
  exact append_ne_append (c.exportName room) hlength (hname.trans (by simp))

/-- The places that belong to the export of a room: its staging folder with all below, its archive
and the archive while it is not complete. -/
def Owns (c : Config) (t : Terrain) (room : String) (q : List String) : Prop :=
  (∃ more, c.InScratch t (c.exportName room :: more) q)
    ∨ c.InScratch t [c.exportName room ++ ".zip"] q
    ∨ c.InScratch t [c.exportName room ++ ".zip.partial"] q

/-- The places that an export works at before its archive is complete: the staging folder with all
below and the unfinished archive. -/
def Stages (c : Config) (t : Terrain) (room : String) (q : List String) : Prop :=
  (∃ more, c.InScratch t (c.exportName room :: more) q)
    ∨ c.InScratch t [c.exportName room ++ ".zip.partial"] q

theorem owns_of_stages {q : List String} (hq : c.Stages t room q) : c.Owns t room q :=
  hq.imp id .inr

/-- The places of the staging folder: its own and all below. -/
def Houses (c : Config) (t : Terrain) (room : String) (q : List String) : Prop :=
  ∃ more, c.InScratch t (c.exportName room :: more) q

/-- An archive is in the way of nothing that is staged. -/
theorem not_stages_archive {q : List String} (hq : c.InScratch t [c.exportName room ++ ".zip"] q) :
    ¬ c.Stages t room q := by
  rintro (⟨more, hin⟩ | hin)
  · have hname := (List.cons.inj (hq.names_inj hin)).1
    have hlength : ".zip".length ≠ "".length := by decide
    exact append_ne_append (c.exportName room) hlength (hname.trans (by simp))
  · exact append_ne_append _ (by decide) (List.cons.inj (hq.names_inj hin)).1

/-- The names of an export are names, and in the staging folder or its place there are no links. -/
structure Housed (c : Config) (t : Terrain) (room : String) : Prop where
  staging : ProperName (c.exportName room)
  archive : ProperName (c.exportName room ++ ".zip")
  unfinished : ProperName (c.exportName room ++ ".zip.partial")
  linkless : ∀ q, c.Houses t room q → t.links q = none

/-- Nor is there a link in the place of the unfinished archive. -/
structure Settled (c : Config) (t : Terrain) (room : String) : Prop extends c.Housed t room where
  unlinked_partial : ∀ q, c.InScratch t [c.exportName room ++ ".zip.partial"] q → t.links q = none

/-- The names of an export are names, and the scratch folder is plain. -/
structure Grounded (c : Config) (t : Terrain) (room : String) : Prop extends c.Settled t room where
  plain : t.IsPlain c.scratchFolder

theorem properName_staging (hc : c.fault? = none) (hroom : IsRoomText room) :
    ProperName (c.exportName room) := by
  have hname : ProperName (c.exportName room ++ "") := properName_exportName hc hroom (by decide)
  simpa using hname

theorem housed (hc : c.fault? = none) (hroom : IsRoomText room)
    (hlinkless : ∀ q, c.Houses t room q → t.links q = none) : c.Housed t room where
  staging := properName_staging hc hroom
  archive := properName_exportName hc hroom (by decide)
  unfinished := properName_exportName hc hroom (by decide)
  linkless := hlinkless

theorem grounded (hc : c.fault? = none) (hroom : IsRoomText room)
    (hplain : t.IsPlain c.scratchFolder) : c.Grounded t room where
  toHoused := housed hc hroom fun _ ⟨more, place, hplace, hq⟩ => hq ▸ hplain place hplace _ more
  unlinked_partial := fun _ ⟨place, hplace, hq⟩ => hq ▸ hplain place hplace _ []
  plain := hplain

theorem partialPath_archivePath (h : c.exportName room ++ ".zip" ≠ "") :
    partialPath (c.archivePath room)
      = Path.join c.scratchFolder (c.exportName room ++ ".zip.partial") := by
  rw [partialPath, archivePath, Path.join_append _ h, String.append_assoc]
  rfl

theorem inScratch_of_aim {path : String} {names q : List String}
    (hpath : t.aim follow path = (t.aim true c.scratchFolder).map (· ++ names))
    (hq : t.aim follow path = some q) : c.InScratch t names q := by
  rw [hpath] at hq
  obtain ⟨place, hplace, rfl⟩ := Option.map_eq_some_iff.mp hq
  exact ⟨place, hplace, rfl⟩

/-- On the way from the scratch folder to a name in it that is no link there is no link. -/
theorem isClear_of_unlinked {name : String} (hname : ProperName name)
    (hunlinked : ∀ q, c.InScratch t [name] q → t.links q = none) (place : List String)
    (hplace : t.aim true c.scratchFolder = some place) : t.IsClear place (Path.parts name) := by
  intro front hfront hne
  rw [Path.parts_proper hname] at hfront
  obtain ⟨n, more, rfl⟩ := List.exists_cons_of_ne_nil hne
  obtain ⟨rfl, rfl⟩ : n = name ∧ more = [] := by simpa using hfront
  exact hunlinked _ ⟨place, hplace, rfl⟩

/-- A path to a name in the scratch folder that is no link points where the name says, links followed
or not. -/
theorem aim_of_unlinked {name : String} (hname : ProperName name)
    (hunlinked : ∀ q, c.InScratch t [name] q → t.links q = none) :
    t.aim follow (Path.join c.scratchFolder name)
      = (t.aim true c.scratchFolder).map (· ++ [name]) := by
  have hparts := Path.parts_proper hname
  have hclear := isClear_of_unlinked hname hunlinked
  rw [Terrain.aim_join (by simpa [hparts] using hname) hclear, hparts]

namespace Housed

variable (h : c.Housed t room)
include h

theorem aim_stagingFolder : t.aim follow (c.stagingFolder room)
    = (t.aim true c.scratchFolder).map (· ++ [c.exportName room]) :=
  aim_of_unlinked h.staging fun q hq => h.linkless q ⟨[], hq⟩

/-- A link in the place of the archive is not followed. -/
theorem aim_archivePath : t.aim false (c.archivePath room)
    = (t.aim true c.scratchFolder).map (· ++ [c.exportName room ++ ".zip"]) :=
  t.aim_join_name c.scratchFolder h.archive

/-- Nor is a link in the place of the unfinished archive. -/
theorem aim_unfinished : t.aim false (partialPath (c.archivePath room))
    = (t.aim true c.scratchFolder).map (· ++ [c.exportName room ++ ".zip.partial"]) := by
  rw [partialPath_archivePath h.archive.ne_empty, t.aim_join_name c.scratchFolder h.unfinished]

/-- The staging folder is plain. -/
theorem plain_staging : t.IsPlain (c.stagingFolder room) := by
  intro q hq n more
  obtain ⟨place, hplace, rfl⟩ := inScratch_of_aim h.aim_stagingFolder hq
  exact h.linkless _ ⟨n :: more, place, hplace, by simp⟩

/-- What a path below the staging folder points at is below it. -/
theorem inScratch_of_aim_below {path : String} (hpath : ∀ n ∈ Path.parts path, ProperName n)
    {q : List String} (hq : t.aim follow (Path.join (c.stagingFolder room) path) = some q) :
    c.InScratch t (c.exportName room :: Path.parts path) q := by
  rw [h.plain_staging.aim_join hpath, h.aim_stagingFolder] at hq
  obtain ⟨middle, hmiddle, rfl⟩ := Option.map_eq_some_iff.mp hq
  obtain ⟨place, hplace, rfl⟩ := Option.map_eq_some_iff.mp hmiddle
  exact ⟨place, hplace, by simp⟩

/-- The path of the staging folder leads through what that of the scratch folder leads through. -/
theorem leadsThrough_staging {q : List String} (hq : t.LeadsThrough (c.stagingFolder room) q) :
    t.LeadsThrough c.scratchFolder q ∨ c.InScratch t [c.exportName room] q := by
  have hparts := Path.parts_proper h.staging
  have hclear := isClear_of_unlinked h.staging fun q hq => h.linkless q ⟨[], hq⟩
  rcases Terrain.leadsThrough_join (by simpa [hparts] using h.staging) hclear hq with
    hscratch | ⟨place, front, hplace, hfront, hne, rfl⟩
  · exact .inl hscratch
  · rw [hparts] at hfront
    refine .inr ⟨place, hplace, ?_⟩
    obtain ⟨n, more, rfl⟩ := List.exists_cons_of_ne_nil hne
    simpa using hfront

/-- The path of something below the staging folder leads down from there. -/
theorem leadsThrough_below {path : String} (hpath : ∀ n ∈ Path.parts path, ProperName n)
    {q : List String} (hq : t.LeadsThrough (Path.join (c.stagingFolder room) path) q) :
    t.LeadsThrough c.scratchFolder q ∨ ∃ front, front <+: Path.parts path
      ∧ c.InScratch t (c.exportName room :: front) q := by
  rcases h.plain_staging.leadsThrough_join hpath hq with
    hstaging | ⟨middle, front, hmiddle, hfront, -, rfl⟩
  · exact (h.leadsThrough_staging hstaging).imp id fun hself => ⟨[], List.nil_prefix, hself⟩
  · obtain ⟨place, hplace, rfl⟩ := inScratch_of_aim h.aim_stagingFolder hmiddle
    exact .inr ⟨front, hfront, place, hplace, by simp⟩

end Housed

namespace Settled

variable (h : c.Settled t room)
include h

/-- Where an export is put together there are no links. -/
theorem unlinked (q : List String) (hq : c.Stages t room q) : t.links q = none :=
  hq.elim (h.linkless q) (h.unlinked_partial q)

theorem aim_partialPath : t.aim follow (partialPath (c.archivePath room))
    = (t.aim true c.scratchFolder).map (· ++ [c.exportName room ++ ".zip.partial"]) := by
  rw [partialPath_archivePath h.archive.ne_empty, aim_of_unlinked h.unfinished h.unlinked_partial]

theorem aim_partial {place : List String} (hplace : t.aim true c.scratchFolder = some place) :
    t.aim follow (partialPath (c.archivePath room))
      = some (place ++ [c.exportName room ++ ".zip.partial"]) := by
  rw [h.aim_partialPath, hplace, Option.map_some]

end Settled

end Config

end CanvasFlutter
