import CanvasFlutter.Proofs.Export.Place
import CanvasFlutter.Proofs.Workspace.Removal

namespace CanvasFlutter

/-!
# `CanvasFlutter.Proofs.Export.Confined` — an export stays where it belongs

Each step of an export has a lemma that says where it may change files and where it may make
folders. Most steps only fill: they change what is below the staging folder and the unfinished
archive. Put together, an export changes nothing but what belongs to its room.

## Contents
- **Walking.** `does_visitTree`: a walk does what its visits do.
- **Staging.** `Config.Fills`, `Config.Opens`; `does_fillStaging`, `does_writePages`.
- **Archiving.** `Housed.writeArchive_cases`, `Settled.writeArchive_cases`: what happens before the
  archive takes its place.
- **Rooms.** `does_package`, `does_exportRoom`.
- **Stores.** `Store.IsLookup`, which folders with canvases are.
- **A small project.** `smallProject` and `homeCanvas`, which can be exported.
-/

open Entry Package FileAction

/-! ## Walking -/

namespace Package

variable {ε α β : Type} {t : Terrain} {may make : List String → Prop} {visit : Visit α}

theorem does_onPath {action : FileAction FileFault α} {post : α → Prop}
    (h : Does t may make action post) (path : String) :
    Does t may make (onPath path action) post := h.mapError _

/-- What a walk does with one item of a listing. -/
def visitChild (visit : Visit α) (fuel : Nat) (path : String) (names : List String)
    (item : String × EntryKind) : ExportAction (List α) := do
  let child := Path.join path item.1
  let childNames := names ++ [item.1]
  match item.2 with
  | .link => return []
  | .file => return [← visit child childNames .file]
  | .folder => do
      let inside ← attempt (listFolder child)
      let result ← visit child childNames .folder
      match inside with
      | .ok inside => return result :: (← visitFolder visit fuel child childNames inside)
      | .error fault => throw (.file child fault)

theorem visitFolder_succ (visit : Visit α) (fuel : Nat) (path : String) (names : List String)
    (listing : List (String × EntryKind)) : visitFolder visit (fuel + 1) path names listing
      = (do
        let results ← listing.mapM (visitChild visit fuel path names)
        return results.flatten) := rfl

theorem does_visitFolder (hvisit : ∀ path names kind, names ≠ [] → (∀ n ∈ names, ProperName n) →
      Does t may make (visit path names kind) fun _ => True)
    (fuel : Nat) (path : String) {names : List String} (hnames : ∀ n ∈ names, ProperName n)
    {listing : List (String × EntryKind)} (hlisting : ∀ item ∈ listing, ProperName item.1) :
    Does t may make (visitFolder visit fuel path names listing) fun _ => True := by
  induction fuel generalizing path names listing with
  | zero => exact does_throw _
  | succ fuel ih =>
      have hall : ∀ item ∈ listing, Does t may make (visitChild visit fuel path names item)
          fun _ => True := by
        rintro ⟨name, kind⟩ hitem
        have hchild : ∀ n ∈ names ++ [name], ProperName n := by
          intro n hn
          rcases List.mem_append.mp hn with hn | hn
          · exact hnames n hn
          · exact (List.mem_singleton.mp hn) ▸ hlisting _ hitem
        cases kind with
        | link => exact does_pure trivial
        | file =>
            exact (hvisit _ _ _ (by simp) hchild).bind fun result _ => does_pure trivial
        | folder =>
            refine (does_listFolder _).attempt.bind fun inside hinside => ?_
            refine (hvisit _ _ _ (by simp) hchild).bind fun result _ => ?_
            cases inside with
            | ok inside =>
                exact (ih _ hchild (hinside inside rfl)).bind fun rest _ => does_pure trivial
            | error fault => exact does_throw _
      rw [visitFolder_succ]
      exact (does_mapM hall).bind fun results _ => does_pure trivial

/-- A walk does no more than its visits. -/
theorem does_visitTree (hvisit : ∀ path names kind, names ≠ [] → (∀ n ∈ names, ProperName n) →
      Does t may make (visit path names kind) fun _ => True) (path : String) :
    Does t may make (visitTree visit path) fun _ => True := by
  refine (does_listFolder path).attempt.bind fun listing hlisting => ?_
  cases listing with
  | ok listing => exact does_visitFolder hvisit _ _ (by simp) (hlisting listing rfl)
  | error fault =>
      refine (does_look _).bind fun found _ => ?_
      cases found with
      | true => exact does_pure trivial
      | false => exact does_throw _

/-- The entries of an archive are only read. -/
theorem does_archiveEntry (folder archive : String) (level : Int) (path : String)
    (names : List String) (kind : EntryKind) :
    Does t may make (archiveEntry folder archive level path names kind) fun _ => True := by
  have hread : Does t may make (onPath path (readBytes path)) fun _ => True :=
    does_onPath (does_of_reads (reads_readBytes path)) path
  unfold archiveEntry
  dsimp only
  split
  · exact does_pure trivial
  · split
    · exact hread.bind fun content _ => does_pure trivial
    · exact does_throw _

/-- An archive is written where its path points. -/
theorem does_compress {path : String} (staging folder : String) (level : Int)
    (h : ∀ q, t.aim true path = some q → may q) :
    Does t may make (compress staging path folder level) fun _ => True := by
  have hwrite : ∀ content, Does t may make (onPath path (writeBytes path content))
      fun _ => True := fun content => does_onPath (does_writeBytes content h) path
  refine (hwrite _).bind fun _ _ => ?_
  refine (does_visitTree (fun path names kind _ _ => ?_) _).bind fun entries _ => hwrite _
  exact does_archiveEntry folder _ level path names kind

end Package

/-! ## Staging -/

/-- The template is a folder. -/
def Package.checkTemplate (template : String) : ExportAction Unit := do
  unless ← look (·.isFolder template) do throw (.file template .templateMissing)

/-- What was left in the staging folder is removed. -/
def Package.clearStaging (staging : String) : ExportAction Unit := do
  if ← look (·.exists? staging) then onPath staging (FileAction.removeTree staging)

/-- What is done with the staging folder once it is free: a copy of the template. -/
def Package.fillStaging (template staging : String) : ExportAction Unit := do
  onPath staging (FileAction.makeFolders staging)
  let _ ← visitTree
    (fun path names kind => do
      let target := Path.join staging ("/".intercalate names)
      match kind with
      | .folder => onPath target (FileAction.makeFolders target)
      | _ => onPath target (FileAction.copyFile path target))
    template

theorem Package.stageTemplate_eq (template staging : String) :
    stageTemplate template staging = (do
      checkTemplate template
      clearStaging staging
      fillStaging template staging) := by
  unfold stageTemplate checkTemplate clearStaging
  simp only [bind_assoc]
  refine bind_congr fun found => ?_
  cases found with
  | true =>
      rw [if_pos rfl, if_pos rfl, pure_bind]
      refine bind_congr fun stale => ?_
      cases stale <;> rfl
  | false => rfl

/-- The folder that a path is in, and all that lead to it. -/
def Package.openParent (path : String) : ExportAction Unit :=
  match Path.parent? path with
  | some parent => onPath parent (FileAction.makeFolders parent)
  | none => pure ()

theorem Package.writePage_eq (staging : String) (page : GeneratedPage) :
    writePage staging page = (do
      openParent (Path.join staging page.route.file)
      onPath (Path.join staging page.route.file)
        (FileAction.writeText (Path.join staging page.route.file) (String.ofList page.source))) := by
  unfold writePage openParent
  dsimp only
  cases Path.parent? (Path.join staging page.route.file) with
  | some parent => rfl
  | none => rfl

theorem Package.does_openParent {t : Terrain} {may make : List String → Prop} {path : String}
    (h : ∀ parent, Path.parent? path = some parent → ∀ q, t.LeadsThrough parent q → may q ∨ make q) :
    Does t may make (openParent path) fun _ => True := by
  rw [openParent]
  split
  · next parent hparent => exact does_onPath (does_makeFolders (h parent hparent)) parent
  · exact does_pure trivial

namespace Config

variable {c : Config} {t : Terrain} {room : String}

/-- The places that change while an export is put together: those below the staging folder and the
unfinished archive. -/
def Fills (c : Config) (t : Terrain) (room : String) (q : List String) : Prop :=
  (∃ n more, c.InScratch t (c.exportName room :: n :: more) q)
    ∨ c.InScratch t [c.exportName room ++ ".zip.partial"] q

/-- The places where an export makes folders if nothing is there: on the way to the scratch folder,
and the staging folder. -/
def Opens (c : Config) (t : Terrain) (room : String) (q : List String) : Prop :=
  t.LeadsThrough c.scratchFolder q ∨ c.InScratch t [c.exportName room] q

theorem stages_of_fills {q : List String} (hq : c.Fills t room q) : c.Stages t room q :=
  hq.imp (fun ⟨n, more, hin⟩ => ⟨n :: more, hin⟩) id

theorem stages_of_opens {q : List String} (hq : c.Opens t room q) :
    c.Stages t room q ∨ t.LeadsThrough c.scratchFolder q :=
  hq.symm.imp (fun hin => .inl ⟨[], hin⟩) id

namespace Housed

variable (h : c.Housed t room)
include h

theorem fills_of_aim_below {path : String} (hpath : ∀ n ∈ Path.parts path, ProperName n)
    {follow : Bool} {q : List String}
    (hq : t.aim follow (Path.join (c.stagingFolder room) path) = some q) : c.Fills t room q := by
  have hin := h.inScratch_of_aim_below hpath hq
  cases hparts : Path.parts path with
  | nil => simp [Path.parts] at hparts
  | cons n more => exact .inl ⟨n, more, hparts ▸ hin⟩

/-- The folders on the way of a path below the staging folder. -/
theorem opens_below {path : String} (hpath : ∀ n ∈ Path.parts path, ProperName n)
    {q : List String} (hq : t.LeadsThrough (Path.join (c.stagingFolder room) path) q) :
    c.Fills t room q ∨ c.Opens t room q := by
  rcases h.leadsThrough_below hpath hq with hway | ⟨front, -, hin⟩
  · exact .inr (.inl hway)
  · cases front with
    | nil => exact .inr (.inr hin)
    | cons n more => exact .inl (.inl ⟨n, more, hin⟩)

theorem does_fillStaging (template : String) :
    Does t (c.Fills t room) (c.Opens t room)
      (fillStaging template (c.stagingFolder room)) fun _ => True := by
  have hopen : Does t (c.Fills t room) (c.Opens t room) (makeFolders (c.stagingFolder room))
      fun _ => True := does_makeFolders fun q hq => .inr (h.leadsThrough_staging hq)
  refine (does_onPath hopen _).bind fun _ _ => ?_
  refine (does_visitTree (fun path names kind hne hnames => ?_) template).bind
    fun _ _ => does_pure trivial
  have hparts := Path.parts_intercalate_proper hnames hne
  have hproper : ∀ n ∈ Path.parts ("/".intercalate names), ProperName n := by rwa [hparts]
  have hmake : Does t (c.Fills t room) (c.Opens t room)
      (makeFolders (Path.join (c.stagingFolder room) ("/".intercalate names))) fun _ => True :=
    does_makeFolders fun _ hq => h.opens_below hproper hq
  have hcopy : Does t (c.Fills t room) (c.Opens t room)
      (copyFile path (Path.join (c.stagingFolder room) ("/".intercalate names))) fun _ => True :=
    does_copyFile fun q hq => h.fills_of_aim_below hproper hq
  cases kind with
  | folder => exact does_onPath hmake _
  | file => exact does_onPath hcopy _
  | link => exact does_onPath hcopy _

theorem does_writePages (pages : List Page) :
    Does t (c.Fills t room) (c.Opens t room)
      (writePages (c.stagingFolder room) (compilePages pages)) fun _ => True := by
  unfold writePages
  refine does_forM fun page hpage => ?_
  have hroute := mem_planRoutes hpage
  have hproper : ∀ n ∈ Path.parts page.route.file, ProperName n := by
    rw [Route.parts_file hroute]
    exact Route.proper_fileNames hroute
  have hwrite : Does t (c.Fills t room) (c.Opens t room)
      (writeText (Path.join (c.stagingFolder room) page.route.file) (String.ofList page.source))
      fun _ => True := does_writeText _ fun q hq => h.fills_of_aim_below hproper hq
  rw [writePage_eq]
  refine Does.bind (does_openParent fun parent hparent q hq => ?_) fun _ _ => does_onPath hwrite _
  exact h.opens_below hproper (Terrain.leadsThrough_parent hparent hq)

theorem does_patchRoutesFile (routes : List Route) :
    Does t (c.Fills t room) (c.Opens t room)
      (patchRoutesFile (c.stagingFolder room) routes) fun _ => True := by
  have hproper : ∀ n ∈ Path.parts routesFile, ProperName n :=
    parts_routesFile ▸ proper_routesNames
  refine ((does_of_reads (reads_readText _)).mapError _).bind fun existing _ => ?_
  dsimp only
  split
  · exact does_onPath (does_writeText _ fun q hq => h.fills_of_aim_below hproper hq) _
  · exact does_throw _

end Housed

end Config

/-! ## Archiving -/

namespace Package

variable {w w' : Workspace} {staging archive folder path : String} {level : Int}

theorem writeArchive_eq (staging archive folder : String) (level : Int) :
    writeArchive staging archive folder level = (do
      openParent archive
      match ← attempt (compress staging (partialPath archive) folder level) with
      | .ok () => onPath archive (renameFile (partialPath archive) archive)
      | .error error =>
          let _ ← attempt (removeFile (partialPath archive))
          throw error) := by
  unfold writeArchive openParent
  dsimp only
  cases Path.parent? archive with
  | some parent => rfl
  | none => rfl

/-- An archive is compressed once its parents are there, and moved to its place unless that fails;
then what there is of it is removed. -/
theorem writeArchive_stages {r : Except ExportError Unit}
    (h : (writeArchive staging archive folder level).runOn w = (r, w')) :
    (∃ e, (openParent archive).runOn w = (.error e, w') ∧ r = .error e)
      ∨ ∃ opened compressed, (openParent archive).runOn w = (.ok (), opened)
        ∧ ((∃ e, (compress staging (partialPath archive) folder level).runOn opened
              = (.error e, compressed)
            ∧ r = .error e ∧ w' = ((removeFile (partialPath archive)).runOn compressed).2)
          ∨ (compress staging (partialPath archive) folder level).runOn opened
              = (.ok (), compressed)
            ∧ ∃ moved, (renameFile (partialPath archive) archive).runOn compressed = (moved, w')
              ∧ r = moved.mapError (.file archive)) := by
  rw [writeArchive_eq] at h
  rcases runOn_bind_cases h with hfailed | ⟨_, opened, hopen, hrest⟩
  · exact .inl hfailed
  · rw [runOn_bind, runOn_attempt] at hrest
    cases hsecond : (compress staging (partialPath archive) folder level).runOn opened with
    | mk second compressed =>
        rw [hsecond] at hrest
        cases second with
        | ok _ =>
            exact .inr ⟨opened, compressed, hopen, .inr ⟨hsecond, runOn_mapError_cases hrest⟩⟩
        | error e =>
            obtain ⟨rfl, rfl⟩ := Prod.mk.inj hrest
            exact .inr ⟨opened, compressed, hopen, .inl ⟨e, hsecond, rfl, rfl⟩⟩

/-- A complete archive is in the file that it was written to. -/
theorem exists_file_of_compress (h : (compress staging path folder level).runOn w = (.ok (), w')) :
    ∃ place name content, w'.resolve true path = .ok (.taken (place ++ [name]) (.file content)) := by
  obtain ⟨-, opened, -, h⟩ := runOn_bind_eq_ok h
  obtain ⟨entries, walked, -, h⟩ := runOn_bind_eq_ok h
  obtain ⟨place, name, spot, hresolve, hspot, rfl⟩ :=
    exists_store_of_writeBytes (runOn_mapError_eq_ok h)
  exact ⟨place, name, _, Workspace.resolve_store hspot hresolve⟩

end Package

namespace Config

variable {c : Config} {t : Terrain} {room : String}

/-- The places that change while an export is put together: those below the staging folder and what
the path of the unfinished archive leads to. -/
def Writes (c : Config) (t : Terrain) (room : String) (q : List String) : Prop :=
  c.Fills t room q ∨ t.aim true (partialPath (c.archivePath room)) = some q

/-- A complete archive, in the file that its path leads to, is moved to its place. -/
def Moves (c : Config) (room : String) (w : Workspace) (r : Except ExportError Unit)
    (w' : Workspace) : Prop :=
  (∃ moved, (renameFile (partialPath (c.archivePath room)) (c.archivePath room)).runOn w
      = (moved, w') ∧ r = moved.mapError (.file (c.archivePath room)))
    ∧ ∃ place name content, w.resolve true (partialPath (c.archivePath room))
      = .ok (.taken (place ++ [name]) (.file content))

/-- How an archive is finished: writing it has failed before and what there is of it is removed, or
the complete archive is moved to its place. -/
def Finishes (c : Config) (room : String) (w : Workspace) (r : Except ExportError Unit)
    (w' : Workspace) : Prop :=
  ((w' = w ∨ w' = ((removeFile (partialPath (c.archivePath room))).runOn w).2) ∧ ∃ e, r = .error e)
    ∨ c.Moves room w r w'

/-- How an archive is finished: writing it has failed before, or the complete archive is moved to its
place. -/
def Delivers (c : Config) (room : String) (w : Workspace) (r : Except ExportError Unit)
    (w' : Workspace) : Prop :=
  (w' = w ∧ ∃ e, r = .error e) ∨ c.Moves room w r w'

/-- An archive is written where its path leads, and then it takes its place, unless the writing
failed. -/
theorem Housed.writeArchive_cases (h : c.Housed t room) {staging folder : String} {level : Int}
    {w w' : Workspace} {r : Except ExportError Unit} (ht : w.terrain = t) (htidy : w.top.Tidy)
    (hrun : (writeArchive staging (c.archivePath room) folder level).runOn w = (r, w')) :
    ∃ between, w.Alters (c.Writes t room) (c.Opens t room) between ∧ c.Finishes room between r w' := by
  have hopen : Does t (c.Writes t room) (c.Opens t room) (openParent (c.archivePath room))
      fun _ => True := does_openParent fun parent hparent q hq =>
    .inr (.inl (Terrain.leadsThrough_of_parent_join h.archive hparent hq))
  have hcompress : Does t (c.Writes t room) (c.Opens t room) (compress staging
      (partialPath (c.archivePath room)) folder level) fun _ => True :=
    does_compress _ folder level fun q => .inr
  rcases writeArchive_stages hrun with ⟨e, hopened, rfl⟩ | ⟨opened, compressed, hopened, hrest⟩
  · exact ⟨w', (hopen w _ w' ht htidy hopened).1, .inl ⟨.inl rfl, e, rfl⟩⟩
  · have hfirst := (hopen w _ opened ht htidy hopened).1
    have hsecond : ∀ {second}, (compress staging (partialPath (c.archivePath room)) folder
        level).runOn opened = (second, compressed) →
        w.Alters (c.Writes t room) (c.Opens t room) compressed := fun hrun =>
      hfirst.trans (hcompress opened _ compressed (hfirst.terrain.trans ht) (hfirst.tidy htidy) hrun).1
    rcases hrest with ⟨e, hfailed, rfl, rfl⟩ | ⟨hcompleted, hmoved⟩
    · exact ⟨compressed, hsecond hfailed, .inl ⟨.inr rfl, e, rfl⟩⟩
    · exact ⟨compressed, hsecond hcompleted, .inr ⟨hmoved, exists_file_of_compress hcompleted⟩⟩

namespace Settled

variable (h : c.Settled t room)
include h

theorem fills_of_writes {q : List String} (hq : c.Writes t room q) : c.Fills t room q :=
  hq.elim id fun haim => .inr (inScratch_of_aim h.aim_partialPath haim)

/-- What is removed of an archive that is not completed has only been filled. -/
theorem exists_delivers {w between w' : Workspace} {r : Except ExportError Unit}
    (ht : w.terrain = t) (htidy : w.top.Tidy)
    (hwrites : w.Alters (c.Writes t room) (c.Opens t room) between)
    (hlast : c.Finishes room between r w') :
    ∃ filled, w.Alters (c.Fills t room) (c.Opens t room) filled ∧ c.Delivers room filled r w' := by
  have hfills : w.Alters (c.Fills t room) (c.Opens t room) between :=
    hwrites.mono (fun _ => h.fills_of_writes) fun _ => .inr
  have hdrop : Does t (c.Fills t room) (c.Opens t room)
      (removeFile (partialPath (c.archivePath room))) fun _ => True := by
    refine does_removeFile fun q hq => ?_
    have hin := inScratch_of_aim h.aim_partialPath hq
    exact ⟨.inr hin, h.unlinked q (.inr hin)⟩
  rcases hlast with ⟨rfl | rfl, herror⟩ | hmoves
  · exact ⟨w', hfills, .inl ⟨rfl, herror⟩⟩
  · have hdropped := hdrop.alters (hfills.terrain.trans ht) (hfills.tidy htidy)
    exact ⟨_, hfills.trans hdropped, .inl ⟨rfl, herror⟩⟩
  · exact ⟨between, hfills, .inr hmoves⟩

/-- An archive is written by filling, and then it takes its place, unless the filling failed. -/
theorem writeArchive_cases {staging folder : String} {level : Int} {w w' : Workspace}
    {r : Except ExportError Unit} (ht : w.terrain = t) (htidy : w.top.Tidy)
    (hrun : (writeArchive staging (c.archivePath room) folder level).runOn w = (r, w')) :
    ∃ between, w.Alters (c.Fills t room) (c.Opens t room) between ∧ c.Delivers room between r w' := by
  obtain ⟨written, hwrites, hlast⟩ := h.toHoused.writeArchive_cases ht htidy hrun
  exact h.exists_delivers ht htidy hwrites hlast

/-- A complete archive takes its place, or nothing happens. -/
theorem rename_cases {w w' : Workspace} {r : Except FileFault Unit} (ht : w.terrain = t)
    {place : List String} {name : String} {content : ByteArray}
    (hfile : w.resolve true (partialPath (c.archivePath room))
      = .ok (.taken (place ++ [name]) (.file content)))
    (hrun : (renameFile (partialPath (c.archivePath room)) (c.archivePath room)).runOn w
      = (r, w')) :
    ∃ folder, t.aim true c.scratchFolder = some folder
      ∧ t.aim false (c.archivePath room) = some (folder ++ [c.exportName room ++ ".zip"])
      ∧ ((∃ e, w' = w ∧ r = .error e) ∨ r = .ok () ∧ Moved (partialPath (c.archivePath room))
          (c.archivePath room) folder (c.exportName room ++ ".zip") (.file content) w w') := by
  have haim := Workspace.aim_of_resolve hfile
  rw [ht, h.aim_partialPath] at haim
  obtain ⟨folder, hfolder, hplace⟩ := Option.map_eq_some_iff.mp haim
  have harchive : t.aim false (c.archivePath room)
      = some (folder ++ [c.exportName room ++ ".zip"]) := by
    rw [h.aim_archivePath, hfolder, Option.map_some]
  have hunfinished : t.aim false (partialPath (c.archivePath room))
      = some (folder ++ [c.exportName room ++ ".zip.partial"]) := by
    rw [h.aim_partialPath, hfolder, Option.map_some]
  refine ⟨folder, hfolder, harchive, ?_⟩
  rcases renameFile_cases (ht ▸ harchive) hrun with ⟨rfl, haims⟩ | ⟨hok, entry, hmoved⟩
  · cases r with
    | error e => exact .inl ⟨e, rfl, rfl⟩
    | ok _ =>
        have heq := haims rfl
        rw [ht, hunfinished, harchive] at heq
        simp [← String.toList_inj] at heq
  · refine .inr ⟨hok, ?_⟩
    -- The path of the unfinished archive does not end at a link, so what is moved is the file.
    have hnofollow := Workspace.resolve_nofollow hfile fun q hq => by
      rw [ht, hunfinished] at hq
      obtain rfl := Option.some.inj hq
      have hnone := h.unlinked _ (.inr ⟨folder, hfolder, rfl⟩)
      rwa [← ht] at hnone
    obtain ⟨⟨back, n, hsource, hrest⟩, htarget⟩ := hmoved
    obtain ⟨-, rfl⟩ := Spot.taken.inj (Except.ok.inj (hnofollow.symm.trans hsource))
    exact ⟨⟨back, n, hsource, hrest⟩, htarget⟩

/-! ## Rooms -/

theorem does_removeStaging :
    Does t (c.Stages t room) (t.LeadsThrough c.scratchFolder)
      (removeTree (c.stagingFolder room)) fun _ => True := by
  refine does_removeTree fun q hq p hp => ?_
  obtain ⟨place, hplace, rfl⟩ := inScratch_of_aim h.aim_stagingFolder hq
  obtain ⟨more, rfl⟩ := hp
  have hstages : c.Stages t room (place ++ [c.exportName room] ++ more) :=
    .inl ⟨more, place, hplace, by simp⟩
  exact ⟨hstages, h.unlinked _ hstages⟩

theorem does_clearStaging :
    Does t (c.Stages t room) (t.LeadsThrough c.scratchFolder)
      (clearStaging (c.stagingFolder room)) fun _ => True := by
  refine (does_look _).bind fun found _ => ?_
  cases found with
  | true => exact does_onPath h.does_removeStaging _
  | false => exact does_pure trivial

theorem does_cleanUp :
    Does t (c.Stages t room) (t.LeadsThrough c.scratchFolder)
      (cleanUp (c.stagingFolder room)) fun _ => True := by
  refine (does_look _).bind fun found _ => ?_
  cases found with
  | true => exact h.does_removeStaging.attempt.bind fun _ _ => does_pure trivial
  | false => exact does_pure trivial

end Settled

end Config

namespace Config.Grounded

variable {c : Config} {t : Terrain} {room : String} (h : c.Grounded t room)
include h

theorem alters_rename {w w' : Workspace} {r : Except FileFault Unit} (ht : w.terrain = t)
    (htidy : w.top.Tidy) {place : List String} {name : String} {content : ByteArray}
    (hfile : w.resolve true (partialPath (c.archivePath room))
      = .ok (.taken (place ++ [name]) (.file content)))
    (hrun : (renameFile (partialPath (c.archivePath room)) (c.archivePath room)).runOn w
      = (r, w')) :
    w.Alters (c.Owns t room) (t.LeadsThrough c.scratchFolder) w' := by
  obtain ⟨folder, hfolder, harchive, ⟨e, rfl, -⟩ | ⟨-, hmoved⟩⟩ := h.rename_cases ht hfile hrun
  · exact .refl _ _ _
  · have hlink : w.link? (folder ++ [c.exportName room ++ ".zip"]) = none := by
      have := h.plain folder hfolder (c.exportName room ++ ".zip") []
      rwa [← ht] at this
    refine (hmoved.alters htidy (ht ▸ harchive) hlink).mono (fun q hq => ?_) (by simp)
    rcases hq with hsource | rfl
    · rw [ht] at hsource
      exact .inr (.inr (inScratch_of_aim h.aim_partialPath hsource))
    · exact .inr (.inl ⟨folder, hfolder, rfl⟩)

theorem does_writeArchive (folder : String) (level : Int) :
    Does t (c.Owns t room) (t.LeadsThrough c.scratchFolder)
      (writeArchive (c.stagingFolder room) (c.archivePath room) folder level) fun _ => True := by
  intro w r w' ht htidy hrun
  refine ⟨?_, fun _ _ => trivial⟩
  obtain ⟨between, hfill, hend⟩ := h.writeArchive_cases ht htidy hrun
  have hfirst := hfill.mono (fun _ hq => owns_of_stages (stages_of_fills hq))
    (fun _ hq => (stages_of_opens hq).imp owns_of_stages id)
  rcases hend with ⟨rfl, -⟩ | ⟨⟨moved, hrename, -⟩, place, name, content, hfile⟩
  · exact hfirst
  · exact hfirst.trans (h.alters_rename (hfill.terrain.trans ht) (hfill.tidy htidy) hfile hrename)

/-- Putting an export together changes what belongs to its room. -/
theorem does_package (pages : List Page) :
    Does t (c.Owns t room) (t.LeadsThrough c.scratchFolder)
      (package c room (compilePages pages)) fun _ => True := by
  have hstages : ∀ {action : ExportAction Unit},
      Does t (c.Stages t room) (t.LeadsThrough c.scratchFolder) action (fun _ => True) →
      Does t (c.Owns t room) (t.LeadsThrough c.scratchFolder) action fun _ => True :=
    fun hdoes => hdoes.mono (fun _ => owns_of_stages) (fun _ => .inr) fun _ => id
  have hfill : ∀ {action : ExportAction Unit},
      Does t (c.Fills t room) (c.Opens t room) action (fun _ => True) →
      Does t (c.Owns t room) (t.LeadsThrough c.scratchFolder) action fun _ => True :=
    fun hdoes => hstages
      (hdoes.mono (fun _ => stages_of_fills) (fun _ => stages_of_opens) fun _ => id)
  have hcheck : Does t (c.Owns t room) (t.LeadsThrough c.scratchFolder)
      (checkTemplate c.templateFolder) fun _ => True := by
    refine (does_look _).bind fun found _ => ?_
    cases found with
    | true => exact does_pure trivial
    | false => exact does_throw _
  have hstage : Does t (c.Owns t room) (t.LeadsThrough c.scratchFolder)
      (stageTemplate c.templateFolder (c.stagingFolder room)) fun _ => True := by
    rw [stageTemplate_eq]
    refine hcheck.bind fun _ _ => (hstages h.does_clearStaging).bind fun _ _ => ?_
    exact hfill (h.does_fillStaging c.templateFolder)
  refine hstage.bind fun _ _ => (hfill (h.does_writePages pages)).bind fun _ _ => ?_
  refine (hfill (h.does_patchRoutesFile _)).bind fun _ _ => ?_
  exact h.does_writeArchive _ _

end Config.Grounded

/-! ## Stores -/

/-- A store that only looks canvases up. -/
def Store.IsLookup (store : Store) : Prop := ∀ room w, ((store room).runOn w).2 = w

/-- A folder with canvases is only looked at. -/
theorem Store.isLookup_ofFolder (folder : String) : (Store.ofFolder folder).IsLookup := by
  intro room w
  unfold Store.ofFolder
  split
  · rfl
  · next path _ =>
      have hreads := reads_readText path w
      rw [runOn_bind, runOn_attempt]
      cases hread : (readText path).runOn w with
      | mk r between =>
          rw [hread] at hreads
          obtain rfl : between = w := hreads
          cases r with
          | ok text => rfl
          | error fault => cases fault <;> rfl

theorem Store.isLookup_ofList (canvases : List (String × String)) :
    (Store.ofList canvases).IsLookup := fun _ _ => rfl

theorem Store.reads_pages {store : Store} (hstore : store.IsLookup) (room : String) (w : Workspace) :
    ((store.pages room).runOn w).2 = w := by
  have hreads := hstore room w
  rw [Store.pages, runOn_bind]
  cases hread : (store room).runOn w with
  | mk r between =>
      rw [hread] at hreads
      obtain rfl : between = w := hreads
      cases r with
      | error e => rfl
      | ok text =>
          dsimp only
          cases loadPages room text <;> rfl

namespace Config.Grounded

variable {c : Config} {t : Terrain} {room : String} (h : c.Grounded t room)
include h

/-- **An export changes what belongs to its room**, and makes the folders that lead there. -/
theorem does_exportRoom {store : Store} (hstore : store.IsLookup) :
    Does t (c.Owns t room) (t.LeadsThrough c.scratchFolder) (exportRoom c store room)
      fun _ => True := by
  refine (does_of_reads (store.reads_pages hstore room)).bind fun pages _ => ?_
  refine (h.does_package pages).attempt.bind fun result _ => ?_
  refine (h.does_cleanUp.mono (fun _ => owns_of_stages) (fun _ => .inr) fun _ => id).bind
    fun _ _ => ?_
  cases result with
  | ok _ => exact does_pure trivial
  | error e => exact does_throw e

end Config.Grounded

/-! ## A small project -/

/-- A routes file with no routes in it. -/
def emptyRoutes : String := "final Map<String, WidgetBuilder> appRoutes = \x7b\x7d;\n"

/-- A project with nothing but a routes file. -/
def smallProject (routes : String) : Entry :=
  .folder [("lib", .folder [("app", .folder [("routes.dart", .file routes.toUTF8)])])]

/-- A canvas with a text on its only page. -/
def homeCanvas : String :=
  "[\x7b\"name\":\"Home\",\"components\":[\x7b\"type\":\"Text\"\x7d]\x7d]"

/-- The pages of that canvas. -/
def homePages : List Page := (loadPages "" (some homeCanvas)).toOption.getD []

theorem loadPages_homeCanvas (room : String) : loadPages room (some homeCanvas) = .ok homePages := by
  have hblank : blankString homeCanvas = false := by decide +kernel
  have hok : (loadPages "" (some homeCanvas)).toOption.isSome = true := by decide +kernel
  have hroom : loadPages room (some homeCanvas) = loadPages "" (some homeCanvas) := by
    simp [loadPages, hblank]
  rw [hroom, homePages]
  cases hload : loadPages "" (some homeCanvas) with
  | error e => simp [hload, Except.toOption] at hok
  | ok pages => rfl

end CanvasFlutter
