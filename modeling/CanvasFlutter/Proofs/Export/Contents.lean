import CanvasFlutter.Proofs.Bytes.Archive
import CanvasFlutter.Proofs.Export.Success

namespace CanvasFlutter

/-!
# `CanvasFlutter.Proofs.Export.Contents` — what a successful export has made

The archive lists what is staged in the order of a tour, and takes its place when it is complete.
So a successful export is the template overlaid with this run's pages and routes, whatever the
scratch folder held before, and nothing else is left of it.

## Contents
- **Entries.** `entryOf`; `mapM_archiveEntry`: one entry for each item of a tour.
- **Archives.** `compress_ok`, `face?_of_writeArchive`.
- **Exports.** `exportRoom_ok`; `Exported.exists_read?`: the archive is read as it was written.
- **A small export.** `staleExport`, which overwrites what an earlier run has left.
-/

open Entry Package FileAction

/-! ## Entries -/

namespace Package

variable {t : Terrain} {root folder archive : String} {level : Int} {place : List String}
variable {children : List (String × Entry)} {w w' : Workspace}

/-- The entry of an archive for what is at names below a folder. -/
def entryOf (folder : String) (item : List String × Face) : ArchiveEntry :=
  match item.2 with
  | .file content => ⟨"/".intercalate (folder :: item.1), content⟩
  | _ => ⟨"/".intercalate (folder :: item.1) ++ "/", .empty⟩

/-- The entry of an item is what is there. -/
theorem archiveEntry_ok (hstands : Package.Stands t root place children w)
    {item : List String × EntryKind} (hitem : item ∈ tourAll children) {entry : ArchiveEntry}
    (hrun : (visitItem (archiveEntry folder archive level) root item).runOn w = (.ok entry, w')) :
    entry = entryOf folder (item.1, faceAt (.folder children) item.1) ∧ w' = w := by
  obtain ⟨names, k⟩ := item
  obtain ⟨hne, found, hfound, rfl, hlink⟩ := (mem_tourAll_iff hstands.tidy_children).mp hitem
  have hface : faceAt (.folder children) names = found.face := by
    rw [faceAt, face?, hfound]
    rfl
  obtain ⟨haim, hplace⟩ := hstands.aim_below hfound hlink
  rw [hface]
  unfold visitItem archiveEntry at hrun
  cases found with
  | link target => exact absurd rfl hlink
  | folder kids => exact runOn_pure_eq_ok hrun
  | file content =>
      simp only [kind] at hrun
      split at hrun
      · obtain ⟨read, between, hread, hend⟩ := runOn_bind_eq_ok hrun
        have hread := runOn_mapError_eq_ok hread
        obtain ⟨rfl, rfl⟩ := runOn_pure_eq_ok hend
        have hsame := reads_readBytes (Path.joinAll root names) w
        rw [hread] at hsame
        have hcontent := face?_of_readBytes hread (hstands.terrain ▸ haim)
        rw [face?, hplace] at hcontent
        obtain rfl : content = read := Face.file.inj (Option.some.inj hcontent)
        exact ⟨rfl, hsame⟩
      · exact absurd hrun runOn_throw_ne_ok

/-- Actions that read, one after another, give what each of them gives. -/
theorem runOn_mapM_reads {ε α β : Type} {f : β → FileAction ε α} {g : β → α} {items : List β}
    (hstep : ∀ item ∈ items, ∀ a w', (f item).runOn w = (.ok a, w') → a = g item ∧ w' = w)
    {results : List α} (hrun : (items.mapM f).runOn w = (.ok results, w')) :
    results = items.map g ∧ w' = w := by
  induction items generalizing results with
  | nil => exact runOn_pure_eq_ok hrun
  | cons item rest ih =>
      obtain ⟨a, others, between, rfl, hfirst, hothers⟩ := runOn_mapM_cons_eq_ok hrun
      obtain ⟨rfl, rfl⟩ := hstep item (by simp) a between hfirst
      obtain ⟨rfl, rfl⟩ := ih (fun other hother => hstep other (by simp [hother])) hothers
      exact ⟨rfl, rfl⟩

/-- **The entries of an archive** are those of a tour of what is archived. -/
theorem visitTree_archiveEntry (hstands : Package.Stands t root place children w)
    {entries : List ArchiveEntry}
    (hrun : (visitTree (archiveEntry folder archive level) root).runOn w = (.ok entries, w')) :
    entries = (tourFaces children).map (entryOf folder) ∧ w' = w := by
  have hkeeps : KeepsTour t root place children (· = w) (archiveEntry folder archive level) := by
    refine ⟨fun v hv => hv ▸ hstands, ?_⟩
    rintro item hitem v entry v' rfl hvisit
    exact (archiveEntry_ok hstands hitem hvisit).2
  obtain ⟨htour, -⟩ := mapM_tour_of_visitTree hkeeps rfl hrun
  have hreads := runOn_mapM_reads
    (fun item hitem entry w' hvisit => archiveEntry_ok hstands hitem hvisit) htour
  rwa [tourFaces, List.map_map]

theorem exists?_of_visitTree {α : Type} {visit : Visit α} {results : List α}
    (hrun : (visitTree visit root).runOn w = (.ok results, w')) : w.exists? root = true := by
  obtain ⟨listed, between, hlist, hrest⟩ := runOn_attempt_bind_eq_ok hrun
  cases listed with
  | ok listing =>
      obtain ⟨-, q, kids, hresolve, -⟩ := listFolder_eq_ok hlist
      exact Workspace.exists?_eq_true_iff.mpr ⟨q, _, hresolve⟩
  | error fault =>
      have hsame := reads_listFolder root w
      rw [hlist] at hsame
      obtain rfl : between = w := hsame
      rw [runOn_bind, runOn_look] at hrest
      cases hexists : between.exists? root with
      | true => rfl
      | false =>
          simp only [hexists] at hrest
          exact absurd hrest runOn_throw_ne_ok

end Package

/-! ## Archives -/

namespace Config.Grounded

variable {c : Config} {t : Terrain} {room : String} (h : c.Grounded t room)
variable {S T q : List String} {w w' : Workspace}
include h

/-- Writing the unfinished archive changes nothing else. -/
theorem alters_partial (hS : t.aim true c.scratchFolder = some S) (hw : c.Ready t room w)
    {content : ByteArray}
    (hrun : (onPath (partialPath (c.archivePath room))
      (writeBytes (partialPath (c.archivePath room)) content)).runOn w = (.ok (), w')) :
    w.Alters (· = S ++ [c.exportName room ++ ".zip.partial"]) (fun _ => False) w'
      ∧ w'.top.face? (S ++ [c.exportName room ++ ".zip.partial"]) = some (.file content)
      ∧ c.Ready t room w' := by
  have hwrite := runOn_mapError_eq_ok hrun
  have hdoes : Does t (· = S ++ [c.exportName room ++ ".zip.partial"]) (fun _ => False)
      (writeBytes (partialPath (c.archivePath room)) content) fun _ => True :=
    does_writeBytes _ fun q hq => (Option.some.inj ((h.aim_partial hS).symm.trans hq)).symm
  have halters := (hdoes w _ w' hw.terrain hw.tidy hwrite).1
  refine ⟨halters, face?_of_writeBytes hwrite (hw.terrain ▸ h.aim_partial hS), ?_⟩
  refine hw.alters (halters.mono (fun q hq => .inr ?_) (by simp))
  exact (inScratch_iff hS).mpr hq

/-- What an archive has been made of: a ready staging folder with these faces below it. -/
structure Archived (c : Config) (room : String) (S : List String) (w : Workspace)
    (content : ByteArray) (w' : Workspace) : Prop where
  tidy : w'.top.Tidy
  terrain : w'.terrain = w.terrain
  found : w'.exists? (c.stagingFolder room) = true
  folder : w'.top.face? (S ++ [c.exportName room]) = some .folder
  content : ∃ children, Tidy (.folder children)
    ∧ (∀ q, (Entry.folder children).face? q = w.top.face? (S ++ [c.exportName room] ++ q))
    ∧ content = Archive.write (⟨c.exportName room ++ "/", .empty⟩
        :: (tourFaces children).map (entryOf (c.exportName room)))

/-- **Compressing** writes the entries of all that is staged into the unfinished archive. -/
theorem compress_ok (hS : t.aim true c.scratchFolder = some S) (hw : c.Ready t room w)
    {level : Int} (hrun : (compress (c.stagingFolder room) (partialPath (c.archivePath room))
      (c.exportName room) level).runOn w = (.ok (), w')) :
    ∃ content, w'.top.face? (S ++ [c.exportName room ++ ".zip.partial"]) = some (.file content)
      ∧ Archived c room S w content w' := by
  obtain ⟨_, opened, hfirst, hrest⟩ := runOn_bind_eq_ok hrun
  obtain ⟨hopened, hempty, hready⟩ := h.alters_partial hS hw hfirst
  obtain ⟨entries, walked, hwalk, hlast⟩ := runOn_bind_eq_ok hrest
  have hstaging : c.InScratch t [c.exportName room] (S ++ [c.exportName room]) :=
    (inScratch_iff hS).mpr rfl
  obtain ⟨children, hchildren⟩ := face?_eq_folder_iff.mp (hready.staging _ hstaging)
  have hstands : Package.Stands t (c.stagingFolder room) (S ++ [c.exportName room]) children opened :=
    ⟨hready.terrain, hready.tidy, h.aim_staging hS, hchildren⟩
  have hfound := exists?_of_visitTree hwalk
  obtain ⟨rfl, rfl⟩ := visitTree_archiveEntry hstands hwalk
  obtain ⟨hwritten, hcontent, hready'⟩ := h.alters_partial hS hready hlast
  refine ⟨_, hcontent, hready'.tidy, hready'.terrain.trans hw.terrain.symm, ?_,
    hready'.staging _ hstaging, children, hstands.tidy_children, fun q => ?_, rfl⟩
  · -- Where the unfinished archive is there was no folder.
    refine Workspace.exists?_of_folders hwritten.terrain (fun q hq => ?_) hfound
      (hready.terrain ▸ h.aim_staging hS) (by rw [hready'.staging _ hstaging]; simp)
    refine ((hwritten.face q ?_).resolve_right fun hmake => hmake.1).trans hq
    rintro rfl
    rw [hempty] at hq
    cases hq
  · have hkept := (hopened.face (S ++ [c.exportName room] ++ q)
      (ne_staging (by decide)).symm).resolve_right fun hmake => hmake.1
    rw [← hkept, face?, face?, get?_append, hchildren, Option.bind_some]

/-- **Writing an archive** puts the entries of all that is staged in its place. -/
theorem writeArchive_ok (hS : t.aim true c.scratchFolder = some S) (hw : c.Ready t room w)
    {level : Int} (hrun : (writeArchive (c.stagingFolder room) (c.archivePath room)
      (c.exportName room) level).runOn w = (.ok (), w')) :
    ∃ content, w'.top.face? (S ++ [c.exportName room ++ ".zip"]) = some (.file content)
      ∧ w'.top.face? (S ++ [c.exportName room ++ ".zip.partial"]) = none
      ∧ Archived c room S w content w' := by
  have hopen : Does t (fun _ => False) (t.LeadsThrough c.scratchFolder)
      (openParent (c.archivePath room)) fun _ => True :=
    does_openParent fun parent hparent q hq =>
      .inr (Terrain.leadsThrough_of_parent_join h.archive hparent hq)
  obtain ⟨e, -, herror⟩ | ⟨opened, compressed, hfirst, ⟨e, -, herror, -⟩ | ⟨hcompress, moved, hlast,
    hmove⟩⟩ := writeArchive_stages hrun
  · cases herror
  · cases herror
  have hopened := (hopen w _ opened hw.terrain hw.tidy hfirst).1
  have hsame : ∀ q, opened.top.face? q = w.top.face? q := fun q =>
    (hopened.face q id).resolve_right fun hmake => (hw.way q hmake.1).1 hmake.2.1
  have hready := hw.alters (hopened.mono (by simp) fun q hq => .inr (.inl hq))
  obtain ⟨content, hcontent, harchived⟩ := h.compress_ok hS hready hcompress
  obtain ⟨place, name, found, hfile⟩ := exists_file_of_compress hcompress
  have hterrain := harchived.terrain.trans hready.terrain
  have hfound := face?_eq_file_iff.mp hcontent
  rw [(Workspace.get?_of_resolve hfile (hterrain ▸ h.aim_partial hS)).2] at hfound
  obtain rfl : found = content := Entry.file.inj (Option.some.inj hfound)
  obtain ⟨folder, hfolder, htarget, ⟨e, -, herror⟩ | ⟨-, hmoved⟩⟩ :=
    h.rename_cases hterrain hfile hlast
  · subst herror
    cases hmove
  · obtain rfl := Option.some.inj (hS.symm.trans hfolder)
    obtain ⟨hplaced, hgone, -⟩ := hmoved.face? (by simp [face]) harchived.tidy (hterrain ▸ htarget)
      (hterrain ▸ h.aim_partial hS)
    have hlink : compressed.link? (S ++ [c.exportName room ++ ".zip"]) = none := by
      have := h.plain S hS (c.exportName room ++ ".zip") []
      rwa [← hterrain] at this
    have halters := hmoved.alters harchived.tidy (hterrain ▸ htarget) hlink
    have hfolders := hmoved.folders (by simp [face]) harchived.tidy (hterrain ▸ htarget)
    obtain ⟨children, htidy, hfaces, hbytes⟩ := harchived.content
    refine ⟨found, hplaced, hgone, halters.tidy harchived.tidy,
      halters.terrain.trans (harchived.terrain.trans hopened.terrain), ?_,
      hfolders _ harchived.folder, children, htidy, fun q => (hfaces q).trans (hsame _), hbytes⟩
    exact Workspace.exists?_of_folders halters.terrain hfolders harchived.found
      (hterrain ▸ h.aim_staging hS) (by rw [hfolders _ harchived.folder]; simp)

omit h in
/-- The path of a staging folder that is ready leads there still when it has been emptied. -/
theorem exists?_cleared {packed : Workspace} (hS : t.aim true c.scratchFolder = some S)
    (hw : c.Ready t room w) (ht : packed.terrain = t)
    (hfound : packed.exists? (c.stagingFolder room) = true) :
    Workspace.exists? { packed with
      top := changeFolder (fun _ => []) (S ++ [c.exportName room]) packed.top }
      (c.stagingFolder room) = true := by
  obtain ⟨place, entry, hresolve⟩ := Workspace.exists?_eq_true_iff.mp hfound
  let cleared : Workspace := { packed with
    top := changeFolder (fun _ => []) (S ++ [c.exportName room]) packed.top }
  have hsame : Workspace.SameSpot (packed.resolve true (c.stagingFolder room))
      (cleared.resolve true (c.stagingFolder room)) := by
    refine Workspace.sameSpot_resolve (w := packed) (v := cleared) rfl (fun p hp => ?_) true
    show (changeFolder (fun _ => []) (S ++ [c.exportName room]) packed.top).face? p = _
    rw [face?_clear, if_neg]
    rintro ⟨⟨more, rfl⟩, hne⟩
    obtain ⟨n, more, rfl⟩ := List.exists_cons_of_ne_nil (l := more) (by simpa using hne)
    exact hw.trail _ (ht ▸ hp) n more ((inStaging_iff hS).mpr rfl)
  rw [hresolve] at hsame
  cases hcleared : cleared.resolve true (c.stagingFolder room) with
  | error fault =>
      rw [hcleared] at hsame
      cases hsame
  | ok spot =>
      rw [hcleared] at hsame
      cases hsame with
      | taken _ hface => exact Workspace.exists?_eq_true_iff.mpr ⟨_, _, hcleared⟩

/-- There are no links in the staging folder. -/
theorem unlinked_staged (hS : t.aim true c.scratchFolder = some S) (hw : c.Ready t room w)
    (q : List String) : unlinked (w.top.face? (S ++ [c.exportName room] ++ q))
      = w.top.face? (S ++ [c.exportName room] ++ q) := by
  have hnone := h.plain S hS (c.exportName room) q
  rw [← hw.terrain, List.append_cons] at hnone
  cases hface : w.top.face? (S ++ [c.exportName room] ++ q) with
  | none => rfl
  | some face =>
      cases face with
      | link target =>
          rw [← Workspace.link?_eq_some_iff] at hface
          exact absurd (hnone.symm.trans hface) (by simp)
      | _ => rfl

/-- Packaging stages the template overlaid with this run's files, and archives that. -/
theorem package_ok {pages : List Page} (ht : w.terrain = t) (htidy : w.top.Tidy)
    (hS : t.aim true c.scratchFolder = some S) (hT : t.aim true c.templateFolder = some T)
    (hbeside : ¬ S <+: T ∧ ¬ T <+: S) (hdirect : c.IsDirect room w)
    (hrun : (package c room (compilePages pages)).runOn w = (.ok (), w')) :
    ∃ staged, c.Ready t room staged
      ∧ (∃ (existing : String) (patched : Text),
        w.top.face? (T ++ routesNames) = some (.file existing.toUTF8)
          ∧ patchPages existing.toList pages = .ok patched
          ∧ ∀ q, q ≠ [] → staged.top.face? (S ++ [c.exportName room] ++ q)
            = overlay (fun q => unlinked (w.top.face? (T ++ q))) (settings pages patched) q)
      ∧ (writeArchive (c.stagingFolder room) (c.archivePath room) (c.exportName room)
        c.level).runOn staged = (.ok (), w') := by
  rw [package_eq] at hrun
  obtain ⟨_, checked, hcheck, hrest⟩ := runOn_bind_eq_ok hrun
  obtain ⟨rfl, hfolder⟩ := checkTemplate_cases hcheck
  obtain ⟨_, w₁, hclear, hrest⟩ := runOn_bind_eq_ok hrest
  obtain ⟨_, w₂, hfill, hrest⟩ := runOn_bind_eq_ok hrest
  obtain ⟨_, w₃, hwrite, hrest⟩ := runOn_bind_eq_ok hrest
  obtain ⟨_, w₄, hpatch, hrest⟩ := runOn_bind_eq_ok hrest
  obtain ⟨hready, hstaged⟩ := h.face?_staged hdirect ht htidy hS hT hbeside (hfolder rfl) hclear
    hfill hwrite hpatch
  exact ⟨w₄, hready, hstaged, hrest⟩

end Config.Grounded

/-! ## Exports -/

/-- What a successful export of these pages has made of a scratch folder and a template, given by
their places. -/
structure Exported (c : Config) (room : String) (S T : List String) (pages : List Page)
    (w w' : Workspace) : Prop where
  /-- The archive begins with the folder of the project and then lists the template, overlaid with
  the pages and the patched routes, each item once, in the order of names. -/
  archive : ∃ (existing : String) (patched : Text) (items : List (List String × Face)),
    w.top.face? (T ++ routesNames) = some (.file existing.toUTF8)
      ∧ patchPages existing.toList pages = .ok patched
      ∧ items.Pairwise (·.1 < ·.1)
      ∧ (∀ q face, (q, face) ∈ items ↔ q ≠ []
        ∧ overlay (fun q => unlinked (w.top.face? (T ++ q))) (settings pages patched) q = some face)
      ∧ w'.top.face? (S ++ [c.exportName room ++ ".zip"])
        = some (.file (Archive.write (⟨c.exportName room ++ "/", .empty⟩
          :: items.map (entryOf (c.exportName room)))))
  staging : ∀ more, w'.top.face? (S ++ [c.exportName room] ++ more) = none
  unfinished : w'.top.face? (S ++ [c.exportName room ++ ".zip.partial"]) = none
  noStaging : w'.exists? (c.stagingFolder room) = false
  noUnfinished : w'.exists? (partialPath (c.archivePath room)) = false

section

variable {c : Config} {room : String} {store : Store} {w w' : Workspace} {S T : List String}

/-- **A successful export is the template overlaid with this run's files.** The archive begins with
the folder of the project, and its other entries are, each exactly once, parents before children and
siblings in the order of their names, the folders and files of the template, but for the pages, which
are there with their sources, and the routes, which are patched. What the scratch folder held before
makes no difference as long as making the scratch folder makes nothing else, and afterwards there is
neither a staging folder nor an unfinished archive. -/
theorem exportRoom_ok (hc : c.fault? = none) (hroom : IsRoomText room) (hstore : store.IsLookup)
    (htidy : w.top.Tidy) (hplain : w.terrain.IsPlain c.scratchFolder)
    (hS : w.terrain.aim true c.scratchFolder = some S)
    (hT : w.terrain.aim true c.templateFolder = some T) (hbeside : ¬ S <+: T ∧ ¬ T <+: S)
    (hdirect : c.IsDirect room w) {report : ExportReport}
    (hrun : (exportRoom c store room).runOn w = (.ok report, w')) :
    ∃ pages, ((store.pages room).runOn w).1 = .ok pages ∧ Exported c room S T pages w w' := by
  have h := Config.grounded hc hroom hplain
  obtain ⟨pages, packed, hpages, hpack, hclean⟩ := exportRoom_ok_cases hstore hrun
  refine ⟨pages, hpages, ?_⟩
  obtain ⟨w₄, hready, hstaged, hwrite⟩ := h.package_ok rfl htidy hS hT hbeside hdirect hpack
  obtain ⟨existing, patched, hexisting, hpatched, hfaces⟩ := hstaged
  obtain ⟨content, hplaced, hgone, harchived⟩ := h.writeArchive_ok hS hready hwrite
  have hterrain := harchived.terrain.trans hready.terrain
  have hfree : ∀ q content, c.InScratch w.terrain [c.exportName room] q →
      packed.top.face? q ≠ some (.file content) := by
    intro q content hq
    rw [Config.inScratch_iff hS] at hq
    rw [hq, harchived.folder]
    simp
  obtain ⟨-, hmissing⟩ | ⟨folder, hscratch, rfl | ⟨hemptied, hmissing⟩⟩ :=
    h.cleanUp_cases hterrain harchived.tidy hfree hclean
  · rw [harchived.found] at hmissing
    cases hmissing
  · obtain rfl := Option.some.inj (hS.symm.trans hscratch)
    have hcleaned := (h.does_cleanUp packed _ _ hterrain harchived.tidy hclean).1.terrain
    have houtside : ∀ {ending}, ending ≠ "" →
        ¬ S ++ [c.exportName room] <+: S ++ [c.exportName room ++ ending] := by
      rintro ending hending ⟨more, hmore⟩
      exact Config.ne_staging hending hmore.symm
    have hstaging : ∀ more, (Entry.erase S (c.exportName room) packed.top).face?
        (S ++ [c.exportName room] ++ more) = none := fun more => by
      rw [face?_erase, if_pos (List.prefix_append _ _)]
    have hunfinished : (Entry.erase S (c.exportName room) packed.top).face?
        (S ++ [c.exportName room ++ ".zip.partial"]) = none := by
      rw [face?_erase, if_neg (houtside (by decide)), hgone]
    refine ⟨?_, hstaging, hunfinished, ?_, ?_⟩
    · obtain ⟨children, hinner, hchildren, rfl⟩ := harchived.content
      refine ⟨existing, patched, tourFaces children, hexisting, hpatched, pairwise_tourFaces hinner,
        fun q face => ?_, ?_⟩
      · rw [mem_tourFaces_iff hinner, hchildren, h.unlinked_staged hS hready]
        exact and_congr_right fun hq => by rw [hfaces q hq]
      · rw [face?_erase, if_neg (houtside (by decide)), hplaced]
    · refine Workspace.exists?_eq_false ?_ (by simpa using hstaging [])
      rw [hcleaned, hterrain, h.aim_staging hS]
    · refine Workspace.exists?_eq_false ?_ hunfinished
      rw [hcleaned, hterrain, h.aim_partial hS]
  · obtain rfl := Option.some.inj (hS.symm.trans hscratch)
    rw [hemptied, Config.Grounded.exists?_cleared hS hready hterrain harchived.found] at hmissing
    cases hmissing

/-- **A reader of the archive finds what has been exported**, if no name or content is too long for
the header of its entry. -/
theorem Exported.exists_read? {pages : List Page} (h : Exported c room S T pages w w') :
    ∃ (existing : String) (patched : Text) (items : List (List String × Face)) (archive : ByteArray),
      w.top.face? (T ++ routesNames) = some (.file existing.toUTF8)
        ∧ patchPages existing.toList pages = .ok patched
        ∧ (∀ q face, (q, face) ∈ items ↔ q ≠ []
          ∧ overlay (fun q => unlinked (w.top.face? (T ++ q))) (settings pages patched) q = some face)
        ∧ w'.top.face? (S ++ [c.exportName room ++ ".zip"]) = some (.file archive)
        ∧ ((∀ entry ∈ ⟨c.exportName room ++ "/", .empty⟩ :: items.map (entryOf (c.exportName room)),
            entry.Fits) →
          Archive.read? archive = some (⟨c.exportName room ++ "/", .empty⟩
            :: items.map (entryOf (c.exportName room)))) := by
  obtain ⟨existing, patched, items, hexisting, hpatched, -, hitems, harchive⟩ := h.archive
  exact ⟨existing, patched, items, _, hexisting, hpatched, hitems, harchive, Archive.read?_write⟩

end

/-! ## A small export -/

/-- A small template beside a scratch folder that holds these things. -/
def withScratch (scratch : List (String × Entry)) : Workspace where
  top := .folder [
    ("templates", .folder [("flutter", smallProject emptyRoutes)]),
    ("tmp-export", .folder scratch)]
  here := []

/-- A scratch folder in which an older export has left its staging folder. -/
def staleExport : Workspace :=
  withScratch [("flutter-abc", .folder [("stale.txt", .file .empty)])]

namespace Package

/-- The small project and the small canvas's page. -/
def homeLayout : Layout :=
  .ofFiles [routesNames, ["lib", "pages", "home", "home_page.dart"]] (by decide) (by decide)

/-- The small template stands in the folder that all paths start from. -/
def smallBench : Bench := ⟨⟨false, []⟩, [], ["tmp-export"]⟩

theorem leads_withScratch (scratch : List (String × Entry)) :
    (withScratch scratch).Leads smallBench.way smallBench.place := by
  refine ⟨[("templates", .folder [("flutter", smallProject emptyRoutes)]),
    ("tmp-export", .folder scratch)], ?_⟩
  unfold Workspace.walk
  rfl

theorem fits_home : Fits smallBench {} "abc" homeLayout where
  config := by decide +kernel
  code := by decide
  scratch := by
    have hparts : Path.parts ({} : Config).scratchFolder = ["tmp-export"] := by decide +kernel
    exact ⟨by decide +kernel, by decide +kernel, ⟨[], hparts⟩, by decide, by decide⟩
  staging := by decide +kernel
  archive := by decide +kernel
  unfinished := by decide +kernel
  below := usable_ofFiles (by decide) (by decide +kernel)

/-- What is in a folder with one thing in it is the folder or in that thing. -/
theorem get?_single {name : String} {child entry : Entry} {q : List String}
    (h : (Entry.folder [(name, child)]).get? q = some entry) :
    q = [] ∧ entry = .folder [(name, child)] ∨ ∃ more, q = name :: more ∧ child.get? more = some entry := by
  cases q with
  | nil => exact .inl ⟨rfl, (Option.some.inj h).symm⟩
  | cons n more =>
      rw [get?, List.lookup_cons] at h
      split at h
      · next heq =>
          obtain rfl := eq_of_beq heq
          exact .inr ⟨more, rfl, h⟩
      · cases h

/-- What is in the small project may be staged with the page. -/
theorem allows_smallProject {routes : String} {q : List String} {entry : Entry}
    (h : (smallProject routes).get? q = some entry) : homeLayout.Allows q entry.face := by
  obtain ⟨rfl, rfl⟩ | ⟨_, rfl, hlib⟩ := get?_single h
  · exact homeLayout.top
  obtain ⟨rfl, rfl⟩ | ⟨_, rfl, happ⟩ := get?_single hlib
  · exact ⟨routesNames, by decide, by decide, by decide⟩
  obtain ⟨rfl, rfl⟩ | ⟨more, rfl, hfile⟩ := get?_single happ
  · exact ⟨routesNames, by decide, by decide, by decide⟩
  cases more with
  | nil =>
      obtain rfl := Option.some.inj hfile
      exact List.mem_cons_self
  | cons n more => cases hfile

theorem stock_smallProject : Stock smallBench {} homeLayout ["templates", "flutter"]
    [("lib", .folder [("app", .folder [("routes.dart", .file emptyRoutes.toUTF8)])])] where
  descends := by
    have hparts : Path.parts ({} : Config).templateFolder = ["templates", "flutter"] := by
      decide +kernel
    exact ⟨by decide +kernel, by decide +kernel, ⟨["templates"], hparts⟩, by decide, by decide⟩
  usable := by decide +kernel
  beside := by decide
  tidy := tidy_of_isTidy _ (by decide +kernel)
  allowed q entry h := allows_smallProject h
  below q hq hthere := by
    obtain ⟨entry, hentry⟩ := Option.ne_none_iff_exists'.mp hthere
    have hallowed := allows_smallProject hentry
    have hL : homeLayout.file q ∨ homeLayout.folder q := by
      cases entry with
      | file content => exact .inl hallowed
      | folder children => exact .inr hallowed
      | link target => exact hallowed.elim
    exact (usable_ofFiles (by decide) (by decide +kernel) q hq hL).2

/-- Over what an older export has left, the page of the small canvas is exported. -/
theorem exists_exportRoom_stale : ∃ report w',
    (exportRoom {} (Store.ofList [("abc", homeCanvas)]) "abc").runOn staleExport
      = (.ok report, w') := by
  have hpages : ((Store.ofList [("abc", homeCanvas)]).pages "abc").runOn staleExport
      = (.ok homePages, staleExport) := by
    have hstored : (Store.ofList [("abc", homeCanvas)] "abc").runOn staleExport
        = (.ok (some homeCanvas), staleExport) := rfl
    rw [Store.pages, runOn_bind, hstored]
    dsimp only
    rw [loadPages_homeCanvas]
    rfl
  have hcleared : (clearStaging (({} : Config).stagingFolder "abc")).endsIn staleExport ()
      (withScratch []) = true := by
    delta clearStaging removeTree removeFolder FileAction.resolve Workspace.exists? Workspace.entry?
      Workspace.isLink Workspace.resolve
    rw [Workspace.walk_eq_walkBy]
    decide +kernel
  have hpatched : (patchPages emptyRoutes.toList homePages).toOption.isSome = true := by
    decide +kernel
  have hopen : IsOpenWay (withScratch []).top [] (smallBench.staging {} "abc") := by
    intro front hfront
    have hstaging : smallBench.staging {} "abc" = ["tmp-export", "flutter-abc"] := by decide +kernel
    rw [hstaging] at hfront
    simp only [List.prefix_cons_iff, List.prefix_nil] at hfront
    rcases hfront with rfl | ⟨_, rfl, rfl | ⟨_, rfl, rfl⟩⟩ <;> decide +kernel
  have hfiles : ∀ route ∈ planRoutes homePages,
      route.fileNames ∈ [routesNames, ["lib", "pages", "home", "home_page.dart"]] := by decide +kernel
  cases hpatch : patchPages emptyRoutes.toList homePages with
  | error e =>
      rw [hpatch] at hpatched
      cases hpatched
  | ok patched =>
      obtain ⟨w', hrun⟩ := exists_exportRoom fits_home stock_smallProject
        (stock_smallProject.isFolder (leads_withScratch _) rfl) (runOn_of_endsIn hcleared)
        (tidy_of_isTidy _ (by decide +kernel)) (leads_withScratch _) hopen rfl
        (fun _ _ => rfl) rfl rfl hpatch hpages hfiles
      exact ⟨_, w', hrun⟩

end Package

theorem exportRoom_ok_stale :
    ({} : Config).fault? = none ∧ IsRoomText "abc" ∧ (Store.ofList [("abc", homeCanvas)]).IsLookup
      ∧ staleExport.top.Tidy ∧ staleExport.terrain.IsPlain ({} : Config).scratchFolder
      ∧ staleExport.terrain.aim true ({} : Config).scratchFolder = some ["tmp-export"]
      ∧ staleExport.terrain.aim true ({} : Config).templateFolder = some ["templates", "flutter"]
      ∧ (¬ ["tmp-export"] <+: ["templates", "flutter"] ∧ ¬ ["templates", "flutter"] <+: ["tmp-export"])
      ∧ ({} : Config).IsDirect "abc" staleExport
      ∧ ∃ report w', (exportRoom {} (Store.ofList [("abc", homeCanvas)]) "abc").runOn staleExport
          = (.ok report, w')
        ∧ ∃ pages, (((Store.ofList [("abc", homeCanvas)]).pages "abc").runOn staleExport).1 = .ok pages
          ∧ Exported {} "abc" ["tmp-export"] ["templates", "flutter"] pages staleExport w' := by
  have hconfig : ({} : Config).fault? = none := by decide +kernel
  have hroom : IsRoomText "abc" := by decide
  have hstore := Store.isLookup_ofList [("abc", homeCanvas)]
  have htidy : staleExport.top.Tidy := tidy_of_isTidy _ (by decide +kernel)
  have hlinkless : staleExport.top.isLinkless = true := by decide +kernel
  have hlinks : ∀ q, staleExport.terrain.links q = none := fun q => by
    cases hlink : staleExport.link? q with
    | none => exact hlink
    | some target =>
        exact absurd (Workspace.link?_eq_some_iff.mp hlink)
          (face?_ne_link_of_isLinkless hlinkless q target)
  have hplain : staleExport.terrain.IsPlain ({} : Config).scratchFolder := fun _ _ _ _ => hlinks _
  have hscratch : staleExport.terrain.aim true ({} : Config).scratchFolder = some ["tmp-export"] :=
    Terrain.aim_name (by decide) (hlinks _)
  have htemplate : staleExport.terrain.aim true ({} : Config).templateFolder
      = some ["templates", "flutter"] := by
    have hparts : Path.parts ({} : Config).templateFolder = ["templates", "flutter"] := by
      decide +kernel
    have hstart : staleExport.terrain.start ({} : Config).templateFolder = [] := by decide +kernel
    rw [Terrain.aim, hparts, hstart]
    exact Terrain.aimFrom_proper (by decide) fun _ _ _ => hlinks _
  have hdirect : ({} : Config).IsDirect "abc" staleExport :=
    Config.isDirect_of_no_dots hplain (by decide +kernel)
  obtain ⟨report, w', hrun⟩ := exists_exportRoom_stale
  exact ⟨hconfig, hroom, hstore, htidy, hplain, hscratch, htemplate, by decide, hdirect, report, w',
    hrun, exportRoom_ok hconfig hroom hstore htidy hplain hscratch htemplate (by decide) hdirect hrun⟩

end CanvasFlutter
