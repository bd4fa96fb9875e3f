import CanvasFlutter.Proofs.Export.Contents
import CanvasFlutter.Proofs.Workspace.Gap

namespace CanvasFlutter

/-!
# `CanvasFlutter.Proofs.Export.Unfinished` — what is left of an archive

An archive grows in a file beside its place. Whatever fails before the archive is complete, that
file is removed; what is complete is moved to its place, and that fails for nothing but a folder
there. Then the complete archive is left under the name that it grew under.

## Contents
- **Paths.** `Path.lastPart`, `Path.wayBefore`; `reaches_of_resolve`: a path that leads somewhere
  goes down from a folder to its last name.
- **Moving.** `IsBlocked`; `exists_renameFile_or_blocked`.
- **Compressing.** `contentsOf`, `Complete`; `compress_cases`.
- **Writing.** `LeavesNothing`, `Finished`, `Leaves`; `writeArchive_leaves`.
-/

open Entry Package FileAction

/-! ## Paths -/

namespace Path

variable {path ending : String}

/-- What stands behind the last slash of a path. -/
def lastPart (path : String) : String := (parts path).getLast (parts_ne_nil path)

/-- The way that a path takes up to its last slash. -/
def wayBefore (path : String) : Way :=
  ⟨isAbsolute path, (parts path).dropLast.filter Terrain.isStep⟩

theorem parts_eq_concat (path : String) : parts path = (parts path).dropLast ++ [lastPart path] :=
  (List.dropLast_append_getLast (parts_ne_nil path)).symm

theorem no_slash_lastPart (path : String) : '/' ∉ (lastPart path).toList :=
  no_slash_of_mem_parts (List.getLast_mem (parts_ne_nil path))

/-- An ending goes to the last part of a path. -/
theorem parts_append (hending : '/' ∉ ending.toList) (path : String) :
    parts (path ++ ending) = (parts path).dropLast ++ [lastPart path ++ ending] := by
  have hone : ∀ name : String, '/' ∉ name.toList → parts name = [name] := fun name hname => by
    rw [parts, List.splitOn_eq_singleton hname, List.map_singleton, String.ofList_toList]
  have hends : ∀ name : String, '/' ∉ name.toList → parts (name ++ ending) = [name ++ ending] := by
    intro name hname
    apply hone
    rw [String.toList_append, List.mem_append, not_or]
    exact ⟨hname, hending⟩
  unfold lastPart
  rcases exists_last_name path with ⟨name, hparts, rfl⟩ | ⟨front, name, hpath, hname, hparts⟩
  · have hmem : path ∈ parts path := by simp [hparts]
    simp [hparts, hends path (no_slash_of_mem_parts hmem)]
  · have hslash : path ++ ending = String.ofList front ++ "/" ++ (name ++ ending) := by
      rw [hpath, ← String.toList_inj]
      simp
    rw [hslash, parts_append_slash, hends name hname]
    simp [hparts]

theorem lastPart_append (hending : '/' ∉ ending.toList) (path : String) :
    lastPart (path ++ ending) = lastPart path ++ ending := by
  have hparts := parts_eq_concat (path ++ ending)
  rw [parts_append hending, List.dropLast_concat] at hparts
  simpa using (List.append_cancel_left hparts).symm

theorem wayBefore_append (hending : '/' ∉ ending.toList) (hhead : path ≠ "" ∨ isAbsolute ending = false) :
    wayBefore (path ++ ending) = wayBefore path := by
  have habsolute : isAbsolute (path ++ ending) = isAbsolute path := by
    by_cases hempty : path = ""
    · subst hempty
      rw [String.empty_append, isAbsolute_empty]
      exact hhead.resolve_left fun h => h rfl
    · exact isAbsolute_append hempty ending
  rw [wayBefore, habsolute, parts_append hending, List.dropLast_concat, wayBefore]

/-- A path that ends in a name goes down to it. -/
theorem descends_lastPart (h : ProperName (lastPart path)) :
    Descends (wayBefore path) [lastPart path] path where
  absolute := rfl
  steps := by
    have hstep : Terrain.isStep (lastPart path) = true := by
      simp [Terrain.isStep, h.ne_empty, h.ne_dot]
    rw [steps, parts_eq_concat path, List.filter_append, List.filter_cons, if_pos hstep]
    rfl
  ending := ⟨_, parts_eq_concat path⟩
  nonempty := by simp
  passable := by simpa using h

end Path

namespace Workspace

variable {w : Workspace} {way : Path.Way} {path name : String} {place : List String}
variable {follow : Bool} {spot : Spot}

/-- **A path that leads somewhere** and ends in a name reaches it from a folder. -/
theorem reaches_of_resolve (hpath : Path.Descends way [name] path)
    (h : w.resolve follow path = .ok spot) :
    ∃ place, w.Leads way place ∧ w.Reaches place [name] path := by
  have hname := hpath.passable name (by simp)
  have hstep : Terrain.isStep name = true := by
    simp [Terrain.isStep, hname.ne_empty, hname.ne_dot]
  obtain ⟨before, hparts⟩ := hpath.ending
  rw [List.getLast?_singleton, Option.toList_some] at hparts
  have hway : before.filter Terrain.isStep = way.steps := by
    have hsteps := hpath.steps
    rw [Path.steps, hparts, List.filter_append, List.filter_cons, if_pos hstep] at hsteps
    exact (List.append_inj' hsteps rfl).1
  have hwalk := walk_of_resolve h
  rw [hparts] at hwalk
  obtain ⟨place, children, hfront⟩ := exists_walk_front (by simp [hstep]) hwalk
  have hleads : w.Leads way place := by
    refine ⟨children, ?_⟩
    rw [← hpath.absolute]
    refine walk_congr ?_ hfront
    rw [← hway, List.filter_filter]
    simp
  obtain ⟨-, hnul, hbytes⟩ := bounds_of_resolve h
  have hdescent : w.Descent place ([] ++ name :: []) path := ⟨⟨way, hleads, hpath⟩, hnul⟩
  refine ⟨place, hleads, hdescent, fun n hn => ?_, hbytes⟩
  obtain rfl := List.mem_singleton.mp hn
  by_contra hlong
  rw [hdescent.resolve_long (by simp) (by simpa using hleads.folder) hlong follow] at h
  cases h

/-- What a path that reaches a name leads to is in the place of that name. -/
theorem Reaches.exists_spot (h : w.Reaches place [name] path) :
    ∃ spot, w.resolve false path = .ok spot ∧ spot.place = place ++ [name] := by
  have hdown : w.Reaches place ([] ++ [name]) path := h
  cases hentry : w.top.get? (place ++ [] ++ [name]) with
  | none =>
      have hfree := hdown.resolve_free hdown.short (by simpa using h.folder) h.bytes
        (face?_eq_none_iff.mpr hentry) false
      exact ⟨_, hfree, by simp [Spot.place]⟩
  | some entry => exact ⟨_, hdown.resolve_itself hentry, by simp [Spot.place]⟩

/-- Where a path leads to a file, no folder is in the place of its last name. -/
theorem Reaches.exists_entry {q : List String} {content : ByteArray}
    (h : w.Reaches place [name] path) (hfile : w.resolve true path = .ok (.taken q (.file content))) :
    ∃ entry, w.resolve false path = .ok (.taken (place ++ [name]) entry) ∧ entry.face ≠ .folder
      ∧ w.top.get? (place ++ [name]) = some entry := by
  obtain ⟨spot, hspot, hplace⟩ := h.exists_spot
  have hholds := holds_of_walk (walk_of_resolve hspot)
  cases spot with
  | free front n asFolder =>
      -- A path leads to a free name whether links are followed or not.
      obtain ⟨rfl, hn⟩ := List.append_inj' hplace rfl
      obtain rfl : n = name := by simpa using hn
      obtain ⟨children, hchildren, hnone⟩ := hholds
      have hmissing : w.top.face? (front ++ [] ++ [n]) = none := by
        rw [List.append_nil, face?_child hchildren, hnone]
        rfl
      have hdown : w.Reaches front ([] ++ [n]) path := h
      rw [hdown.resolve_free h.short (by simpa using h.folder) h.bytes hmissing] at hfile
      cases hfile
  | taken q' entry =>
      obtain rfl : q' = place ++ [name] := hplace
      refine ⟨entry, hspot, fun hface => ?_, hholds⟩
      cases entry with
      | folder children =>
          rw [h.resolve hholds (by simp)] at hfile
          cases hfile
      | _ => cases hface

/-- A last part that is no name leads on to a folder. -/
theorem exists_folder_of_leads (hleads : w.Leads (Path.wayBefore path) place)
    (hlast : ¬ ProperName (Path.lastPart path)) (hne : path ≠ "") (hnul : '\x00' ∉ path.toList)
    (hbytes : path.utf8ByteSize ≤ maxPathBytes) :
    ∃ q children, w.resolve false path = .ok (.taken q (.folder children)) := by
  obtain ⟨children, hway⟩ := hleads
  have hfront : w.walk true maxLinks (w.start path) (Path.parts path).dropLast
      = .ok (.taken place (.folder children)) := by
    refine walk_congr ?_ hway
    rw [Path.wayBefore, List.filter_filter]
    simp
  obtain ⟨fuel, hgo⟩ := exists_walk_append hfront
  have hresolve : w.resolve false path = w.walk false fuel place [Path.lastPart path] := by
    rw [resolve_of_bounds hne hnul hbytes, Path.parts_eq_concat path, hgo false _ (by simp)]
  have hfolder := holds_of_walk hfront
  rw [hresolve]
  by_cases hblank : Path.lastPart path = "" ∨ Path.lastPart path = "."
  · rw [walk_blank hfolder hblank]
    exact ⟨place, children, walk_nil hfolder⟩
  · have hup : Path.lastPart path = ".." := by
      by_contra hname
      exact hlast ⟨fun h => hblank (.inl h), fun h => hblank (.inr h), hname,
        Path.no_slash_lastPart path⟩
    rw [hup, walk_up hfolder]
    have habove : w.top.face? place.dropLast = some .folder := by
      rcases List.eq_nil_or_concat place with rfl | ⟨front, n, rfl⟩
      · exact face?_eq_folder_iff.mpr ⟨children, hfolder⟩
      · rw [List.concat_eq_append, List.dropLast_concat]
        rw [List.concat_eq_append] at hfolder
        have hthere : w.top.face? (front ++ [n]) ≠ none := by
          rw [face?, hfolder]
          simp
        exact face?_of_below hthere
    obtain ⟨above, habove⟩ := face?_eq_folder_iff.mp habove
    exact ⟨_, above, walk_nil habove⟩

end Workspace

/-! ## Moving -/

namespace FileAction

variable {w : Workspace} {source target archive : String} {q : List String} {content : ByteArray}

/-- Nothing can be moved to the path of a folder, or to no path at all. -/
def IsBlocked (w : Workspace) (target : String) : Prop :=
  target = "" ∨ ∃ place children, w.resolve false target = .ok (.taken place (.folder children))

theorem runOn_renameFile_blocked {origin : List String} {entry : Entry}
    (hsource : w.resolve false source = .ok (.taken origin entry)) (h : IsBlocked w target) :
    ∃ fault, (renameFile source target).runOn w = (.error fault, w) := by
  rw [renameFile, runOn_bind, runOn_resolve, hsource]
  simp only
  rw [runOn_bind, runOn_resolve]
  rcases h with rfl | ⟨place, children, hfolder⟩
  · exact ⟨.notFound, rfl⟩
  · rw [hfolder]
    exact ⟨folderFault target, rfl⟩

end FileAction

/-- Where nothing but folders may be made, every file was there before. -/
theorem Workspace.Alters.file {w w' : Workspace} {make : List String → Prop} {q : List String}
    {content : ByteArray} (h : w.Alters (fun _ => False) make w')
    (hq : w'.top.face? q = some (.file content)) : w.top.face? q = some (.file content) := by
  rcases h.face q id with hsame | ⟨-, -, hfolder⟩
  · exact hsame.symm.trans hq
  · rw [hfolder] at hq
    cases hq

namespace Package

variable {w : Workspace} {archive : String} {q : List String} {content : ByteArray}

theorem properName_partial (archive : String) :
    ProperName (Path.lastPart archive ++ ".partial") := by
  have hlength : ".partial".length = 8 := by decide
  have hlong : ∀ name : String, name.length < 8 → Path.lastPart archive ++ ".partial" ≠ name := by
    intro name hname heq
    rw [← heq, String.length_append] at hname
    omega
  refine ⟨hlong _ (by decide), hlong _ (by decide), hlong _ (by decide), ?_⟩
  rw [String.toList_append, List.mem_append, not_or]
  exact ⟨Path.no_slash_lastPart archive, by decide⟩

/-- The unfinished archive is beside the archive. -/
theorem descends_partialPath (archive : String) : Path.Descends (Path.wayBefore archive)
    [Path.lastPart archive ++ ".partial"] (partialPath archive) := by
  have hslash : '/' ∉ ".partial".toList := by decide
  have hlast : Path.lastPart (partialPath archive) = Path.lastPart archive ++ ".partial" :=
    Path.lastPart_append hslash archive
  have hdescends := Path.descends_lastPart (hlast ▸ properName_partial archive)
  rwa [hlast, partialPath, Path.wayBefore_append hslash (.inr (by decide))] at hdescends

/-- **Where an archive has been begun** it can be moved to its place, unless that is the place of a
folder. -/
theorem exists_renameFile_or_blocked
    (hfile : w.resolve true (partialPath archive) = .ok (.taken q (.file content))) :
    ∃ front name entry, w.resolve false (partialPath archive) = .ok (.taken (front ++ [name]) entry)
      ∧ entry.face ≠ .folder
      ∧ (IsBlocked w archive ∨ ∃ last, w.terrain.aim false archive = some (front ++ [last])
        ∧ w.Reaches front [last] archive ∧ name ≠ last
        ∧ ∃ w', (renameFile (partialPath archive) archive).runOn w = (.ok (), w')) := by
  obtain ⟨front, hleads, hreaches⟩ := Workspace.reaches_of_resolve (descends_partialPath archive) hfile
  obtain ⟨entry, hitself, hentry, hthere⟩ := hreaches.exists_entry hfile
  refine ⟨front, _, entry, hitself, hentry, ?_⟩
  have hnul : '\x00' ∉ archive.toList := fun hmem =>
    hreaches.nul (by simp [partialPath, String.toList_append, hmem])
  have hbytes : archive.utf8ByteSize ≤ maxPathBytes := by
    have hpartial := hreaches.bytes
    rw [partialPath, String.utf8ByteSize_append] at hpartial
    omega
  -- A last part that is no name, as in `a/` or `a/..`, leads to a folder whenever `a` is one.
  by_cases hlast : ProperName (Path.lastPart archive)
  · have hshort : IsShort (Path.lastPart archive) := by
      have hpartial : IsShort (Path.lastPart archive ++ ".partial") := hreaches.short _ (by simp)
      unfold IsShort at hpartial ⊢
      rw [String.utf8ByteSize_append] at hpartial
      omega
    have harchive : w.Reaches front [Path.lastPart archive] archive :=
      ⟨⟨⟨_, hleads, Path.descends_lastPart hlast⟩, hnul⟩, by simp [hshort], hbytes⟩
    obtain ⟨spot, hspot, hplace⟩ := harchive.exists_spot
    have haim := Workspace.aim_of_resolve hspot
    rw [hplace] at haim
    have hne : Path.lastPart archive ++ ".partial" ≠ Path.lastPart archive := by simp
    by_cases hfolder : w.top.face? (front ++ [Path.lastPart archive]) = some .folder
    · obtain ⟨children, hchildren⟩ := face?_eq_folder_iff.mp hfolder
      exact .inl (.inr ⟨_, children, harchive.resolve hchildren (by simp)⟩)
    · refine .inr ⟨_, haim, harchive, hne, ?_⟩
      have hsource : w.Reaches front ([] ++ [Path.lastPart archive ++ ".partial"])
          (partialPath archive) := hreaches
      have htarget : w.Reaches front ([] ++ [Path.lastPart archive]) archive := harchive
      exact exists_renameFile hsource htarget (by simpa using hthere) (by simp)
        (by simpa using hleads.folder) (by simpa using hfolder)
  · refine .inl ?_
    by_cases hempty : archive = ""
    · exact .inl hempty
    · exact .inr (Workspace.exists_folder_of_leads hleads hlast hempty hnul hbytes)

/-! ## Compressing -/

/-- What is below an entry, in the order of a tour; below what is no folder there is nothing. -/
def contentsOf : Entry → List (List String × Face)
  | .folder children => tourFaces children
  | _ => []

/-- The content of a complete archive at a place: the entry of its folder and one for each item that
is staged. What is said of the items leaves out the case that the archive grows among them. -/
def Complete (staging folder : String) (w : Workspace) (place : List String)
    (content : ByteArray) : Prop :=
  ∃ entries, content = Archive.write (⟨folder ++ "/", .empty⟩ :: entries)
    ∧ ∃ S, w.terrain.aim true staging = some S ∧ (¬ S <+: place → ∃ entry,
      w.top.get? S = some entry ∧ entries = (contentsOf entry).map (entryOf folder))

variable {staging folder path : String} {level : Int} {w' : Workspace}

/-- The walk over what is archived changes nothing. -/
theorem eq_of_visitTree {r : Except ExportError (List ArchiveEntry)} (htidy : w.top.Tidy)
    (h : (visitTree (archiveEntry folder path level) staging).runOn w = (r, w')) : w' = w := by
  have hdoes : Does w.terrain (fun _ => False) (fun _ => False)
      (visitTree (archiveEntry folder path level) staging) fun _ => True :=
    does_visitTree (fun path names kind _ _ => does_archiveEntry folder _ level path names kind) _
  have halters := (hdoes w r w' rfl htidy h).1
  refine Workspace.eq_of_face? halters.terrain htidy (halters.tidy htidy) fun q => ?_
  exact (halters.face q id).resolve_right fun hmake => hmake.1

/-- Below what is no folder a walk finds nothing. -/
theorem visitTree_of_not_folder {α : Type} {visit : Visit α} {entry : Entry}
    (h : w.resolve true staging = .ok (.taken q entry)) (hentry : entry.face ≠ .folder) :
    (visitTree visit staging).runOn w = (.ok [], w) := by
  have hlist : (listFolder staging).runOn w = (.error .notDirectory, w) := by
    rw [listFolder, runOn_bind, runOn_resolve, h]
    cases entry with
    | folder children => exact absurd rfl hentry
    | _ => rfl
  have hexists : w.exists? staging = true := Workspace.exists?_eq_true_iff.mpr ⟨q, entry, h⟩
  rw [visitTree, runOn_bind, runOn_attempt, hlist]
  simp only
  rw [runOn_bind, runOn_look, hexists]
  rfl

/-- A walk that succeeds finds what is staged. -/
theorem contentsOf_of_visitTree {entries : List ArchiveEntry} (htidy : w.top.Tidy)
    (h : (visitTree (archiveEntry folder path level) staging).runOn w = (.ok entries, w')) :
    ∃ S entry, w.terrain.aim true staging = some S ∧ w.top.get? S = some entry
      ∧ entries = (contentsOf entry).map (entryOf folder) := by
  obtain ⟨S, entry, hresolve⟩ := Workspace.exists?_eq_true_iff.mp (exists?_of_visitTree h)
  have haim := Workspace.aim_of_resolve hresolve
  have hentry : w.top.get? S = some entry :=
    Workspace.holds_of_walk (Workspace.walk_of_resolve hresolve)
  refine ⟨S, entry, haim, hentry, ?_⟩
  cases entry with
  | folder children => exact (visitTree_archiveEntry ⟨rfl, htidy, haim, hentry⟩ h).1
  | file content =>
      rw [visitTree_of_not_folder hresolve (by simp [face])] at h
      exact (Except.ok.inj (Prod.mk.inj h).1).symm
  | link target =>
      rw [visitTree_of_not_folder hresolve (by simp [face])] at h
      exact (Except.ok.inj (Prod.mk.inj h).1).symm

/-- What a tree holds below a place is known from the faces there, so a change elsewhere keeps it. -/
theorem get?_of_alters {S place : List String} (htidy : w.top.Tidy)
    (h : w.Alters (· = place) (fun _ => False) w') (hS : ¬ S <+: place) :
    w'.top.get? S = w.top.get? S := by
  refine get?_eq_of_face? htidy (h.tidy htidy) fun q => ?_
  refine (h.face (S ++ q) fun heq => hS ?_).resolve_right fun hmake => hmake.1
  exact ⟨q, heq⟩

/-- **Compressing** does nothing at all, or it has begun a file that its path leads to, and if it
succeeds that file is complete. -/
theorem compress_cases {r : Except ExportError Unit} (htidy : w.top.Tidy)
    (h : (compress staging path folder level).runOn w = (r, w')) :
    (w' = w ∧ r ≠ .ok ()) ∨ ∃ place content, w.terrain.aim true path = some place
      ∧ w.Alters (· = place) (fun _ => False) w'
      ∧ w'.resolve true path = .ok (.taken place (.file content))
      ∧ (r = .ok () → Complete staging folder w place content) := by
  rw [compress] at h
  rcases runOn_bind_cases h with ⟨e, hopen, rfl⟩ | ⟨_, opened, hopen, hrest⟩
  · -- A write that fails has no effect, so there is no file yet.
    obtain ⟨first, hwrite, hfirst⟩ := runOn_mapError_cases hopen
    cases first with
    | ok _ => cases hfirst
    | error fault => exact .inl ⟨eq_of_writeBytes_error hwrite, by simp⟩
  · obtain ⟨place, haim, hopened, hbegun⟩ :=
      exists_taken_of_writeBytes htidy (runOn_mapError_eq_ok hopen)
    refine .inr ⟨place, ?_⟩
    -- From here on the file is there, and it stays as it is until all of it is written at once.
    rcases runOn_bind_cases hrest with ⟨e, hvisit, rfl⟩ | ⟨entries, between, hvisit, hfinish⟩
    · obtain rfl := eq_of_visitTree (hopened.tidy htidy) hvisit
      exact ⟨.empty, haim, hopened, hbegun, by simp⟩
    · obtain rfl := eq_of_visitTree (hopened.tidy htidy) hvisit
      obtain ⟨last, hwrite, rfl⟩ := runOn_mapError_cases hfinish
      cases last with
      | error fault =>
          obtain rfl := eq_of_writeBytes_error hwrite
          exact ⟨.empty, haim, hopened, hbegun, by simp [Except.mapError]⟩
      | ok _ =>
          obtain ⟨place', haim', hwritten, hcontent⟩ :=
            exists_taken_of_writeBytes (hopened.tidy htidy) hwrite
          rw [hopened.terrain] at haim'
          obtain rfl := Option.some.inj (haim.symm.trans haim')
          refine ⟨_, haim, hopened.trans hwritten, hcontent, fun _ => ?_⟩
          obtain ⟨S, entry, hS, hentry, hentries⟩ :=
            contentsOf_of_visitTree (hopened.tidy htidy) hvisit
          rw [hopened.terrain] at hS
          refine ⟨entries, rfl, S, hS, fun hapart => ⟨entry, ?_, hentries⟩⟩
          rw [← get?_of_alters htidy hopened hapart, hentry]

/-! ## Writing -/

/-- Nothing is left of an unfinished archive: its place is empty, or there is no file at all that
was not there before. -/
def LeavesNothing (archive : String) (w w' : Workspace) : Prop :=
  (∃ p, w.terrain.aim false (partialPath archive) = some p ∧ w'.top.face? p = none)
    ∨ ∀ q content, w'.top.face? q = some (.file content) → w.top.face? q = some (.file content)

/-- An unfinished archive has taken the place of the archive: its content is there and can be read,
or the link is there that led to it. -/
structure Takes (t : Terrain) (archive : String) (p q place : List String) (content : ByteArray)
    (w' : Workspace) : Prop where
  source : t.aim false (partialPath archive) = some p
  target : t.aim false archive = some q
  gone : w'.top.face? p = none
  file : t.links p = none → place = p ∧ w'.top.face? q = some (.file content)
    ∧ (t.links q = none → (readBytes archive).runOn w' = (.ok content, w'))
  link : ∀ target, t.links p = some target → w'.top.face? q = some (.link target)
    ∧ (place ≠ q → w'.top.face? place = some (.file content))

/-- A complete archive has taken its place. -/
def Finished (staging archive folder : String) (w w' : Workspace) : Prop :=
  ∃ p q place content, w.terrain.aim true (partialPath archive) = some place
    ∧ Complete staging folder w place content ∧ Takes w.terrain archive p q place content w'

/-- A complete archive is left where the unfinished one was, since a folder is in its own place. -/
def Leaves (staging archive folder : String) (w w' : Workspace) : Prop :=
  IsBlocked w' archive ∧ ∃ place content, w.terrain.aim true (partialPath archive) = some place
    ∧ w'.top.face? place = some (.file content) ∧ Complete staging folder w place content

/-- An archive has a name, its place is not that of a folder, and none is made there for it. -/
def IsFree (archive : String) (w : Workspace) : Prop :=
  ProperName (Path.lastPart archive) ∧ ∀ q, w.terrain.aim false archive = some q →
    w.top.face? q ≠ some .folder
      ∧ ∀ parent, Path.parent? archive = some parent → ¬ w.terrain.LeadsThrough parent q

/-- What leads to a file or link that is removed leads to nothing afterwards. -/
theorem face?_of_removeFile {origin : List String} {entry : Entry}
    (h : w.resolve false path = .ok (.taken origin entry)) (hentry : entry.face ≠ .folder)
    (hne : origin ≠ []) : ((removeFile path).runOn w).2.top.face? origin = none := by
  obtain ⟨front, name, rfl⟩ := (List.eq_nil_or_concat origin).resolve_left hne
  rw [List.concat_eq_append] at h ⊢
  rw [removeFile, runOn_bind, runOn_resolve, h]
  cases entry with
  | folder children => exact absurd rfl hentry
  | _ =>
      simp only [runOn_eraseAt]
      rw [face?_erase, if_pos (List.prefix_refl _)]

/-- Removing a file only takes away. -/
theorem face?_removeFile (path : String) (w : Workspace) (q : List String) :
    ((removeFile path).runOn w).2.top.face? q = w.top.face? q
      ∨ ((removeFile path).runOn w).2.top.face? q = none := by
  rcases removeFile_cases (Prod.mk.eta (p := (removeFile path).runOn w)).symm with
    heq | ⟨front, name, entry, -, -, heq⟩
  · exact .inl (by rw [heq])
  · rw [heq, face?_erase]
    split
    · exact .inr rfl
    · exact .inl rfl

/-- **A complete archive takes its place**, or nothing happens because a folder is there. -/
theorem takes_or_blocked {place : List String} {r : Except FileFault Unit} (htidy : w.top.Tidy)
    (hfile : w.resolve true (partialPath archive) = .ok (.taken place (.file content)))
    (h : (renameFile (partialPath archive) archive).runOn w = (r, w')) :
    (IsBlocked w archive ∧ w' = w ∧ ∃ fault, r = .error fault)
      ∨ ¬ IsBlocked w archive ∧ r = .ok () ∧ ∃ p q, Takes w.terrain archive p q place content w' := by
  obtain ⟨front, name, entry, hitself, hentry, hblocked | ⟨last, haim, hreaches, hne, v, hrun⟩⟩ :=
    exists_renameFile_or_blocked hfile
  · obtain ⟨fault, hrun⟩ := runOn_renameFile_blocked hitself hblocked
    rw [hrun] at h
    obtain ⟨rfl, rfl⟩ := Prod.mk.inj h
    exact .inl ⟨hblocked, rfl, fault, rfl⟩
  · rw [hrun] at h
    obtain ⟨rfl, rfl⟩ := Prod.mk.inj h
    have horigin : w.terrain.aim false (partialPath archive) = some (front ++ [name]) :=
      Workspace.aim_of_resolve hitself
    have hthere : w.top.get? (front ++ [name]) = some entry :=
      Workspace.holds_of_walk (Workspace.walk_of_resolve hitself)
    have hheld : w.top.get? place = some (.file content) :=
      Workspace.holds_of_walk (Workspace.walk_of_resolve hfile)
    rcases renameFile_cases haim hrun with ⟨-, haims⟩ | ⟨-, found, hmoved⟩
    · -- The unfinished archive would be where the archive is.
      have heq := Option.some.inj (horigin.symm.trans ((haims rfl).trans haim))
      exact absurd (by simpa using heq) hne
    · obtain ⟨⟨back, n, hsource, -⟩, -⟩ := id hmoved
      obtain ⟨-, rfl⟩ := Spot.taken.inj (Except.ok.inj (hitself.symm.trans hsource))
      obtain ⟨hplaced, hgone, hnotFolder⟩ := hmoved.face? hentry htidy haim horigin
      refine .inr ⟨?_, rfl, _, _, horigin, haim, hgone, fun hlink => ?_, fun target hlink => ?_⟩
      · rintro (rfl | ⟨q, children, hfolder⟩)
        · exact hreaches.path_ne_empty rfl
        · have hq := Workspace.aim_of_resolve hfolder
          rw [haim] at hq
          obtain rfl : front ++ [last] = q := Option.some.inj hq
          have hfound : w.top.get? (front ++ [last]) = some (.folder children) :=
            Workspace.holds_of_walk (Workspace.walk_of_resolve hfolder)
          exact hnotFolder (face?_eq_folder_iff.mpr ⟨children, hfound⟩)
      · have hfollow := Workspace.aim_of_resolve hfile
        rw [Terrain.aim, Terrain.aimFrom_follow horigin hlink] at hfollow
        obtain rfl : front ++ [name] = place := Option.some.inj hfollow
        obtain rfl := Option.some.inj (hthere.symm.trans hheld)
        refine ⟨rfl, hplaced, fun hfree => ?_⟩
        have hterrain := (hmoved.alters htidy haim hfree).terrain
        exact runOn_readBytes (hreaches.stays hterrain (hmoved.folders hentry htidy haim)) hplaced
      · have hitsLink := Workspace.link?_eq_some_iff.mp hlink
        rw [face?, hthere] at hitsLink
        rw [Option.some.inj hitsLink] at hplaced
        refine ⟨hplaced, fun hapart => ?_⟩
        rw [hmoved.face?_of_ne hentry htidy haim horigin hapart, face?_eq_file_iff.mpr hheld]
        -- A file is not where a link is.
        rintro rfl
        rw [hthere] at hheld
        obtain rfl := Option.some.inj hheld
        cases Option.some.inj hitsLink

/-- What is begun for an archive and then removed is gone. -/
theorem gone_of_removeFile {place : List String}
    (hfile : w.resolve true (partialPath archive) = .ok (.taken place (.file content))) :
    ∃ p, w.terrain.aim false (partialPath archive) = some p
      ∧ ((removeFile (partialPath archive)).runOn w).2.top.face? p = none := by
  obtain ⟨front, name, entry, hitself, hentry, -⟩ := exists_renameFile_or_blocked hfile
  have hplace : front ++ [name] ≠ [] := by simp
  exact ⟨_, Workspace.aim_of_resolve hitself, face?_of_removeFile hitself hentry hplace⟩

/-- The parents of an archive are all that is made before it is begun. -/
theorem alters_of_openParent {r : Except ExportError Unit} (htidy : w.top.Tidy)
    (h : (openParent archive).runOn w = (r, w')) : w.Alters (fun _ => False)
      (fun q => ∃ parent, Path.parent? archive = some parent ∧ w.terrain.LeadsThrough parent q)
      w' := by
  have hdoes : Does w.terrain (fun _ => False)
      (fun q => ∃ parent, Path.parent? archive = some parent ∧ w.terrain.LeadsThrough parent q)
      (openParent archive) fun _ => True :=
    does_openParent fun parent hparent q hq => .inr ⟨parent, hparent, hq⟩
  exact (hdoes w r w' rfl htidy h).1

/-- A free archive is not blocked once its parents are there and it has been begun. -/
theorem IsFree.not_isBlocked {opened compressed : Workspace} {place : List String}
    (hfree : IsFree archive w) (hopened : w.Alters (fun _ => False)
      (fun q => ∃ parent, Path.parent? archive = some parent ∧ w.terrain.LeadsThrough parent q)
      opened)
    (hcompressed : opened.Alters (· = place) (fun _ => False) compressed)
    (hfile : compressed.resolve true (partialPath archive) = .ok (.taken place (.file content))) :
    ¬ IsBlocked compressed archive := by
  rintro (rfl | ⟨q, children, hfolder⟩)
  · exact hfree.1.ne_empty (by decide)
  · have haim := Workspace.aim_of_resolve hfolder
    rw [hcompressed.terrain, hopened.terrain] at haim
    obtain ⟨hnotFolder, hparent⟩ := hfree.2 q haim
    have hheld : compressed.top.get? q = some (.folder children) :=
      Workspace.holds_of_walk (Workspace.walk_of_resolve hfolder)
    have hplace : q ≠ place := by
      rintro rfl
      have hcontent : compressed.top.get? q = some (.file content) :=
        Workspace.holds_of_walk (Workspace.walk_of_resolve hfile)
      rw [hheld] at hcontent
      cases Option.some.inj hcontent
    have hface : opened.top.face? q = some .folder := by
      rw [← (hcompressed.face q hplace).resolve_right fun hmake => hmake.1]
      exact face?_eq_folder_iff.mpr ⟨children, hheld⟩
    rcases hopened.face q id with hsame | ⟨⟨parent, hfound, hleads⟩, -, -⟩
    · exact hnotFolder (hsame.symm.trans hface)
    · exact hparent parent hfound hleads

/-- Of an archive that cannot be completed nothing is left. -/
theorem leavesNothing_of_error {opened compressed : Workspace} {e : ExportError}
    (htidy : w.top.Tidy) (hopen : (openParent archive).runOn w = (.ok (), opened))
    (hcompress : (compress staging (partialPath archive) folder level).runOn opened
      = (.error e, compressed)) :
    LeavesNothing archive w ((removeFile (partialPath archive)).runOn compressed).2 := by
  have hopened := alters_of_openParent htidy hopen
  rcases compress_cases (hopened.tidy htidy) hcompress with
    ⟨rfl, -⟩ | ⟨place, content, -, halters, hfile, -⟩
  · refine .inr fun q content hq => hopened.file ?_
    rcases face?_removeFile (partialPath archive) compressed q with hsame | hnone
    · rw [← hsame, hq]
    · rw [hnone] at hq
      cases hq
  · obtain ⟨p, hp, hgone⟩ := gone_of_removeFile hfile
    rw [halters.terrain, hopened.terrain] at hp
    exact .inl ⟨p, hp, hgone⟩

/-- **What writing an archive leaves.** If it succeeds, the complete archive is in its place. If it
does not, nothing is left of it, unless it was complete and a folder was in its place: then it stays
where it grew, and that is so whenever it comes to that. -/
theorem writeArchive_leaves {r : Except ExportError Unit} (htidy : w.top.Tidy)
    (hrun : (writeArchive staging archive folder level).runOn w = (r, w')) :
    (r = .ok () → ∃ opened, (openParent archive).runOn w = (.ok (), opened)
      ∧ Finished staging archive folder opened w')
    ∧ (LeavesNothing archive w w' ∨ ∃ opened, (openParent archive).runOn w = (.ok (), opened)
      ∧ (∃ fault, r = .error (.file archive fault)) ∧ Leaves staging archive folder opened w')
    ∧ (IsFree archive w → LeavesNothing archive w w')
    ∧ ∀ opened compressed, (openParent archive).runOn w = (.ok (), opened) →
      (compress staging (partialPath archive) folder level).runOn opened = (.ok (), compressed) →
      IsBlocked compressed archive →
      (∃ fault, r = .error (.file archive fault)) ∧ w' = compressed := by
  rcases writeArchive_stages hrun with ⟨e, hopen, rfl⟩ | ⟨opened, compressed, hopen,
    ⟨e, hcompress, rfl, rfl⟩ | ⟨hcompress, moved, hmove, rfl⟩⟩
  · -- Its parents cannot be made.
    have hnothing : LeavesNothing archive w w' := .inr fun q content =>
      (alters_of_openParent htidy hopen).file
    refine ⟨by simp, .inl hnothing, fun _ => hnothing, fun opened _ hother => ?_⟩
    rw [hopen] at hother
    cases (Prod.mk.inj hother).1
  · -- It cannot be completed.
    have hnothing := leavesNothing_of_error htidy hopen hcompress
    refine ⟨by simp, .inl hnothing, fun _ => hnothing, fun opened' other hopen' hother => ?_⟩
    obtain rfl := (Prod.mk.inj (hopen.symm.trans hopen')).2
    rw [hcompress] at hother
    cases (Prod.mk.inj hother).1
  · -- It is complete, and what is left to do is to move it.
    have hopened := alters_of_openParent htidy hopen
    obtain ⟨-, hne⟩ | ⟨place, content, haim, halters, hfile, hcomplete⟩ :=
      compress_cases (hopened.tidy htidy) hcompress
    · exact absurd rfl hne
    · rcases takes_or_blocked (halters.tidy (hopened.tidy htidy)) hfile hmove with
        ⟨hblocked, rfl, fault, rfl⟩ | ⟨hfree, rfl, p, q, htakes⟩
      · have hcontent : w'.top.get? place = some (.file content) :=
          Workspace.holds_of_walk (Workspace.walk_of_resolve hfile)
        refine ⟨by simp [Except.mapError], .inr ⟨opened, hopen, ⟨fault, rfl⟩, hblocked, place, content,
          haim, face?_eq_file_iff.mpr hcontent, hcomplete rfl⟩, fun hfree => ?_, ?_⟩
        · exact absurd hblocked (hfree.not_isBlocked hopened halters hfile)
        · intro opened' other hopen' hother _
          obtain rfl := (Prod.mk.inj (hopen.symm.trans hopen')).2
          exact ⟨⟨fault, rfl⟩, (Prod.mk.inj (hcompress.symm.trans hother)).2⟩
      · rw [halters.terrain] at htakes
        have hnothing : LeavesNothing archive w w' :=
          .inl ⟨p, hopened.terrain ▸ htakes.source, htakes.gone⟩
        refine ⟨fun _ => ⟨opened, hopen, p, q, place, content, haim, hcomplete rfl, htakes⟩,
          .inl hnothing, fun _ => hnothing, fun opened' other hopen' hother hblocked => ?_⟩
        obtain rfl := (Prod.mk.inj (hopen.symm.trans hopen')).2
        obtain rfl := (Prod.mk.inj (hcompress.symm.trans hother)).2
        exact absurd hblocked hfree

/-- A staged file, a folder in the place of its archive, and what else there is between them. -/
def occupied (more : List (String × Entry)) : Workspace where
  top := .folder ([("a.zip", .folder [])] ++ more ++ [("s", .folder [("x", .file "x".toUTF8)])])
  here := []

/-- The archive of the staged file is completed. -/
def finishOccupied : ExportAction Unit :=
  onPath "a.zip.partial" (writeBytes "a.zip.partial"
    (Archive.write [⟨"f/", .empty⟩, ⟨"f/x", "x".toUTF8⟩]))

/-- The staged file with its complete archive, which is not in its place. -/
def leftBeside : Workspace :=
  (finishOccupied.runOn (occupied [("a.zip.partial", .file .empty)])).2

theorem runOn_compress_occupied :
    (compress "s" "a.zip.partial" "f" 9).runOn (occupied []) = (.ok (), leftBeside) := by
  have hfirst : (onPath "a.zip.partial" (writeBytes "a.zip.partial" .empty)).endsIn (occupied []) ()
      (occupied [("a.zip.partial", .file .empty)]) = true := by
    delta writeBytes FileAction.resolve Workspace.resolve
    rw [Workspace.walk_eq_walkBy]
    decide +kernel
  have hlist : ((listFolder "s").runOn (occupied [("a.zip.partial", .file .empty)])).1
      = .ok [("x", .file)] := by
    delta FileAction.listFolder FileAction.resolve Workspace.resolve
    rw [Workspace.walk_eq_walkBy]
    decide +kernel
  have hentries : (visitFolder (archiveEntry "f" "a.zip.partial" 9) 1 "s" [] [("x", .file)]).endsIn
      (occupied [("a.zip.partial", .file .empty)]) [⟨"f/x", "x".toUTF8⟩]
      (occupied [("a.zip.partial", .file .empty)]) = true := by
    delta visitFolder visitFolder._f archiveEntry readBytes FileAction.resolve Workspace.resolve
    rw [Workspace.walk_eq_walkBy]
    decide +kernel
  have hfinish : (finishOccupied.runOn (occupied [("a.zip.partial", .file .empty)])).1 = .ok () := by
    delta finishOccupied writeBytes FileAction.resolve Workspace.resolve
    rw [Workspace.walk_eq_walkBy]
    decide +kernel
  refine runOn_bind_of_ok (runOn_of_endsIn hfirst) ?_
  refine runOn_bind_of_ok (visitTree_of_visitFolder (by decide) hlist (runOn_of_endsIn hentries)) ?_
  exact Prod.ext hfinish rfl

/-- The small project is staged, and nothing else of its export is there. -/
theorem site_smallProject : Site smallBench {} "abc" homeLayout
    (withScratch [("flutter-abc", smallProject emptyRoutes)]).terrain
    (withScratch [("flutter-abc", smallProject emptyRoutes)]) := by
  have hname : ({} : Config).exportName "abc" = "flutter-abc" := by decide +kernel
  have hstaging : smallBench.place ++ smallBench.staging {} "abc" = ["tmp-export", "flutter-abc"] := by
    decide +kernel
  refine ⟨⟨tidy_of_isTidy _ (by decide +kernel), leads_withScratch _, by decide +kernel,
    fun q face hface => ?_⟩, rfl, fun ending hending => ?_⟩
  · obtain ⟨entry, hentry, rfl⟩ := Option.map_eq_some_iff.mp hface
    have hthere : (withScratch [("flutter-abc", smallProject emptyRoutes)]).top.get?
        ["tmp-export", "flutter-abc"] = some (smallProject emptyRoutes) := rfl
    rw [hstaging, get?_append, hthere] at hentry
    exact allows_smallProject hentry
  · have hne : "flutter-abc" ++ ending ≠ "flutter-abc" := by simpa using hending
    have hlookup : [("flutter-abc", smallProject emptyRoutes)].lookup ("flutter-abc" ++ ending)
        = none := by rw [List.lookup_cons, beq_eq_false_iff_ne.mpr hne, List.lookup_nil]
    have hscratch : (withScratch [("flutter-abc", smallProject emptyRoutes)]).top.get?
        (smallBench.place ++ smallBench.scratch)
          = some (.folder [("flutter-abc", smallProject emptyRoutes)]) := rfl
    rw [hname, face?_child hscratch, hlookup]
    rfl

/-- A complete archive is left that was not there before where a folder is in its place; where none
is, an archive is finished. -/
theorem writeArchive_leaves_occupied :
    (occupied []).top.Tidy
      ∧ (∃ fault, (writeArchive "s" "a.zip" "f" 9).runOn (occupied [])
          = (.error (.file "a.zip" fault), leftBeside)
        ∧ ¬ LeavesNothing "a.zip" (occupied []) leftBeside ∧ ¬ IsFree "a.zip" (occupied []))
      ∧ (withScratch [("flutter-abc", smallProject emptyRoutes)]).top.Tidy
      ∧ ∃ w', (writeArchive "tmp-export/flutter-abc" "tmp-export/flutter-abc.zip" "flutter-abc" 9).runOn
          (withScratch [("flutter-abc", smallProject emptyRoutes)]) = (.ok (), w')
        ∧ ∃ opened, (openParent "tmp-export/flutter-abc.zip").runOn
            (withScratch [("flutter-abc", smallProject emptyRoutes)]) = (.ok (), opened)
          ∧ Finished "tmp-export/flutter-abc" "tmp-export/flutter-abc.zip" "flutter-abc" opened w' := by
  have htidy : (occupied []).top.Tidy := tidy_of_isTidy _ (by decide +kernel)
  have htidyScratch : (withScratch [("flutter-abc", smallProject emptyRoutes)]).top.Tidy :=
    tidy_of_isTidy _ (by decide +kernel)
  have hlinks : ∀ q, (occupied []).terrain.links q = none :=
    Workspace.links_of_isLinkless (by decide +kernel)
  have hopen : (openParent "a.zip").endsIn (occupied []) () (occupied []) = true := by
    delta openParent FileAction.makeFolders makeFirst makeFirst._f
    decide +kernel
  have hpartial : partialPath "a.zip" = "a.zip.partial" := by decide +kernel
  have hcompress : (compress "s" (partialPath "a.zip") "f" 9).runOn (occupied [])
      = (.ok (), leftBeside) := hpartial ▸ runOn_compress_occupied
  have haim : ∀ follow, (occupied []).terrain.aim follow (partialPath "a.zip")
      = some ["a.zip.partial"] := fun follow => by
    rw [hpartial]
    exact Terrain.aim_name (by decide) (hlinks _)
  obtain ⟨-, hne⟩ | ⟨place, content, hplace, halters, hfile, -⟩ := compress_cases htidy hcompress
  · exact absurd rfl hne
  · obtain rfl := Option.some.inj ((haim true).symm.trans hplace)
    have hleft : leftBeside.top.get? ["a.zip.partial"] = some (.file content) :=
      Workspace.holds_of_walk (Workspace.walk_of_resolve hfile)
    have hblocked : IsBlocked leftBeside "a.zip" := by
      have hfolder : leftBeside.isFolder "a.zip" = true := by
        delta leftBeside finishOccupied writeBytes FileAction.resolve Workspace.isFolder
          Workspace.entry? Workspace.resolve
        rw [Workspace.walk_eq_walkBy]
        decide +kernel
      obtain ⟨q, children, hresolve⟩ := Workspace.isFolder_eq_true_iff.mp hfolder
      refine .inr ⟨q, children, Workspace.resolve_nofollow hresolve fun p _ => ?_⟩
      exact (congrFun (congrArg Terrain.links halters.terrain) p).trans (hlinks p)
    obtain ⟨-, -, hfree, hexact⟩ := writeArchive_leaves htidy
      (Prod.mk.eta (p := (writeArchive "s" "a.zip" "f" 9).runOn (occupied []))).symm
    obtain ⟨⟨fault, herror⟩, hstate⟩ := hexact _ _ (runOn_of_endsIn hopen) hcompress hblocked
    have hthere : ¬ LeavesNothing "a.zip" (occupied []) leftBeside := by
      rintro (⟨p, hp, hgone⟩ | hall)
      · obtain rfl := Option.some.inj ((haim false).symm.trans hp)
        rw [face?_eq_none_iff, hleft] at hgone
        cases hgone
      · have hbefore := hall _ _ (face?_eq_file_iff.mpr hleft)
        have hmissing : (occupied []).top.face? ["a.zip.partial"] = none := by decide +kernel
        rw [hmissing] at hbefore
        cases hbefore
    obtain ⟨w', hrun⟩ := exists_writeArchive fits_home site_smallProject "flutter-abc"
    refine ⟨htidy, ⟨fault, Prod.ext herror hstate, hthere, fun h => hthere (hstate ▸ hfree h)⟩,
      htidyScratch, w', hrun, (writeArchive_leaves htidyScratch hrun).1 rfl⟩

end Package

end CanvasFlutter
