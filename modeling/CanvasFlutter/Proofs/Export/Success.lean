import CanvasFlutter.Proofs.Export.Staging
import CanvasFlutter.Proofs.Workspace.Making

namespace CanvasFlutter

/-!
# `CanvasFlutter.Proofs.Export.Success` — when an export cannot fail

An export can only fail where something is in its way. A layout says what may stand in the staging
folder: which places are files and which are folders. While what stands there follows the layout,
each step of the export succeeds and keeps to it.

## Contents
- **Layouts.** `Layout`, `Site`: a staging folder that is ready and follows a layout.
- **Steps.** `Site.exists_makeFolders`, `Site.exists_write`.
- **Copying and writing.** `exists_copy`, `exists_writePages`, `exists_patchRoutesFile`.
- **Archiving.** `exists_writeArchive`.
- **Exports.** `exists_exportRoom`; `exportRoom_ne_ok_of_folder`: what cannot be got around.
-/

open Entry Package FileAction

/-- A path within a folder that a path has just gone into stands behind a slash. -/
theorem Path.join_join_eq {name path : String} (hname : ∀ n ∈ parts name, ProperName n)
    (hpath : isAbsolute path = false) (folder : String) :
    join (join folder name) path = join folder name ++ "/" ++ path := by
  have hne : name ≠ "" := by
    rintro rfl
    exact (hname "" (by simp [parts_empty])).ne_empty rfl
  rw [join_join hname hpath, String.append_assoc, String.append_assoc, join_append folder hne]

/-! ## Layouts -/

/-- What may stand in a folder, by the names that lead to it. -/
structure Layout where
  file : List String → Prop
  folder : List String → Prop
  top : folder []
  disjoint : ∀ q, file q → ¬ folder q
  above : ∀ q front, file q ∨ folder q → front <+: q → front ≠ q → folder front

namespace Layout

variable {L : Layout} {q front : List String}

theorem folder_of_prefix (h : L.folder q) (hfront : front <+: q) : L.folder front := by
  by_cases heq : front = q
  · exact heq ▸ h
  · exact L.above q front (.inr h) hfront heq

theorem folder_of_file {name : String} (h : L.file (q ++ [name])) : L.folder q :=
  L.above _ q (.inl h) (List.prefix_append _ _) (by simp)

/-- The layout of files and of the folders that hold them. -/
def ofFiles (files : List (List String)) (hne : ∃ f ∈ files, f ≠ [])
    (hapart : ∀ f ∈ files, ∀ g ∈ files, f <+: g → f = g) : Layout where
  file q := q ∈ files
  folder q := ∃ f ∈ files, q <+: f ∧ q ≠ f
  top := hne.imp fun _ h => ⟨h.1, List.nil_prefix, h.2.symm⟩
  disjoint q hq := fun ⟨f, hf, hpre, hqf⟩ => hqf (hapart q hq f hf hpre)
  above q front hq hpre hfront := by
    rcases hq with hq | ⟨f, hf, hqf, -⟩
    · exact ⟨q, hq, hpre, hfront⟩
    · refine ⟨f, hf, hpre.trans hqf, ?_⟩
      rintro rfl
      exact hfront (hpre.eq_of_length_le hqf.length_le)

/-- Whether something may stand at names. -/
def Allows (L : Layout) (q : List String) : Face → Prop
  | .file _ => L.file q
  | .folder => L.folder q
  | .link _ => False

end Layout

/-- Where an export takes place: the folder that its paths go down from and the names that lead from
there to the scratch folder. -/
structure Package.Bench where
  way : Path.Way
  place : List String
  scratch : List String

/-- The staging folder of an export, from where its paths start. -/
def Package.Bench.staging (b : Bench) (c : Config) (room : String) : List String :=
  b.scratch ++ [c.exportName room]

/-- The paths of an export go down and are not too long. -/
structure Package.Fits (b : Bench) (c : Config) (room : String) (L : Layout) : Prop where
  config : c.fault? = none
  code : IsRoomText room
  scratch : Path.Descends b.way b.scratch c.scratchFolder
  staging : Path.IsUsable (c.stagingFolder room)
  archive : Path.IsUsable (c.archivePath room)
  unfinished : Path.IsUsable (partialPath (c.archivePath room))
  below : ∀ q, q ≠ [] → L.file q ∨ L.folder q → (∀ n ∈ q, ProperName n)
    ∧ Path.IsUsable (Path.join (c.stagingFolder room) ("/".intercalate q))

/-- The staging folder is ready, and what stands in it follows a layout. -/
structure Package.Staged (b : Bench) (c : Config) (room : String) (L : Layout) (w : Workspace) :
    Prop where
  tidy : w.top.Tidy
  leads : w.Leads b.way b.place
  ready : w.top.face? (b.place ++ b.staging c room) = some .folder
  laid : ∀ q face, w.top.face? (b.place ++ b.staging c room ++ q) = some face → L.Allows q face

/-- Beside a staging folder that is ready there is nothing else of the room's export. -/
structure Package.Site (b : Bench) (c : Config) (room : String) (L : Layout) (t : Terrain)
    (w : Workspace) : Prop extends Package.Staged b c room L w where
  terrain : w.terrain = t
  clear : ∀ ending, ending ≠ "" →
    w.top.face? (b.place ++ b.scratch ++ [c.exportName room ++ ending]) = none

namespace Package

variable {b : Bench} {c : Config} {room : String} {L : Layout} {t : Terrain} {w w' v : Workspace}
variable {names q : List String} {path name : String}

/-! ## Steps -/

theorem reaches (hleads : w.Leads b.way b.place) (hpath : Path.Descends b.way names path)
    (husable : Path.IsUsable path) : w.Reaches b.place names path where
  descends := ⟨b.way, hleads, hpath⟩
  nul := husable.nul
  short n hn := by
    refine husable.names n ?_
    have hsteps : n ∈ Path.steps path := by
      rw [hpath.steps]
      exact List.mem_append_right _ hn
    exact (List.mem_filter.mp hsteps).1
  bytes := husable.bytes

/-- A path of names within a folder is the folder's with the path that the names make. -/
theorem joinAll_eq_join (hnames : ∀ n ∈ names, ProperName n) (hne : names ≠ []) (root : String) :
    Path.joinAll root names = Path.join root ("/".intercalate names) := by
  induction names generalizing root with
  | nil => exact absurd rfl hne
  | cons name rest ih =>
      obtain ⟨hname, hrest⟩ := List.forall_mem_cons.mp hnames
      cases rest with
      | nil => simp [Path.joinAll]
      | cons n more =>
          have hrelative : Path.isAbsolute ("/".intercalate (n :: more)) = false :=
            Path.not_isAbsolute_of_proper (by rwa [Path.parts_intercalate_proper hrest (by simp)])
          have hall := ih hrest (by simp) (Path.join root name)
          rw [Path.join_join (by simpa [Path.parts_proper hname] using hname) hrelative] at hall
          rw [String.intercalate_cons_cons]
          exact hall

/-- What holds a file that a path may name may be named by a path. -/
theorem usable_below {root : String} {q f : List String} (hproper : ∀ n ∈ f, ProperName n)
    (husable : Path.IsUsable (Path.join root ("/".intercalate f))) (hq : q ≠ []) (hpre : q <+: f) :
    (∀ n ∈ q, ProperName n) ∧ Path.IsUsable (Path.join root ("/".intercalate q)) := by
  obtain ⟨rest, rfl⟩ := hpre
  obtain ⟨hfront, hback⟩ := List.forall_mem_append.mp hproper
  refine ⟨hfront, ?_⟩
  by_cases hrest : rest = []
  · rwa [hrest, List.append_nil] at husable
  · have hparts := Path.parts_intercalate_proper hfront hq
    have hrelative : Path.isAbsolute ("/".intercalate rest) = false :=
      Path.not_isAbsolute_of_proper (by rwa [Path.parts_intercalate_proper hback hrest])
    have hsplit : Path.joinAll root (q ++ rest) = Path.joinAll (Path.joinAll root q) rest := by
      simp [Path.joinAll]
    rw [joinAll_eq_join hproper (by simp [hq]), joinAll_eq_join hback hrest,
      joinAll_eq_join hfront hq, Path.join_join_eq (by rwa [hparts]) hrelative] at hsplit
    rw [hsplit] at husable
    exact husable.before_slash

/-- What holds files that paths may name, and the files themselves, may be named by paths. -/
theorem usable_ofFiles {files : List (List String)} {hne : ∃ f ∈ files, f ≠ []}
    {hapart : ∀ f ∈ files, ∀ g ∈ files, f <+: g → f = g} {root : String}
    (hproper : ∀ f ∈ files, ∀ n ∈ f, ProperName n)
    (husable : ∀ f ∈ files, Path.IsUsable (Path.join root ("/".intercalate f))) (q : List String)
    (hq : q ≠ []) (hL : (Layout.ofFiles files hne hapart).file q
      ∨ (Layout.ofFiles files hne hapart).folder q) :
    (∀ n ∈ q, ProperName n) ∧ Path.IsUsable (Path.join root ("/".intercalate q)) := by
  rcases hL with hfile | ⟨f, hf, hpre, -⟩
  · exact usable_below (hproper q hfile) (husable q hfile) hq (List.prefix_refl _)
  · exact usable_below (hproper f hf) (husable f hf) hq hpre

namespace Fits

variable (h : Fits b c room L)
include h

theorem properName (ending : String) (hending : '/' ∉ ending.toList) :
    ProperName (c.exportName room ++ ending) :=
  Config.properName_exportName h.config h.code hending

theorem proper_staging : ProperName (c.exportName room) := by
  have hname := h.properName "" (by decide)
  rwa [String.append_empty] at hname

/-- A name in the scratch folder. -/
theorem descends_name (hname : ProperName name) :
    Path.Descends b.way (b.scratch ++ [name]) (Path.join c.scratchFolder name) := by
  have hparts := Path.parts_proper hname
  have hjoin := h.scratch.join name (by simpa [hparts] using hname)
  rwa [hparts] at hjoin

theorem descends_staging : Path.Descends b.way (b.staging c room) (c.stagingFolder room) :=
  h.descends_name h.proper_staging

theorem reaches_archive (hleads : w.Leads b.way b.place) :
    w.Reaches b.place (b.scratch ++ [c.exportName room ++ ".zip"]) (c.archivePath room) :=
  reaches hleads (h.descends_name (h.properName ".zip" (by decide))) h.archive

theorem reaches_unfinished (hleads : w.Leads b.way b.place) :
    w.Reaches b.place (b.scratch ++ [c.exportName room ++ ".zip.partial"])
      (partialPath (c.archivePath room)) := by
  have hpath := h.descends_name (h.properName ".zip.partial" (by decide))
  rw [← Config.partialPath_archivePath (h.properName ".zip" (by decide)).ne_empty] at hpath
  exact reaches hleads hpath h.unfinished

/-- What may stand in the staging folder can be reached. -/
theorem reaches_below (hleads : w.Leads b.way b.place) (hq : q ≠ []) (hL : L.file q ∨ L.folder q) :
    w.Reaches b.place (b.staging c room ++ q)
      (Path.join (c.stagingFolder room) ("/".intercalate q)) := by
  obtain ⟨hproper, husable⟩ := h.below q hq hL
  have hparts := Path.parts_intercalate_proper hproper hq
  have hjoin := h.descends_staging.join ("/".intercalate q) (by rwa [hparts])
  rw [hparts] at hjoin
  exact reaches hleads hjoin husable

theorem reaches_joinAll (hleads : w.Leads b.way b.place) (hL : L.file q ∨ L.folder q) :
    w.Reaches b.place (b.staging c room ++ q) (Path.joinAll (c.stagingFolder room) q) := by
  by_cases hq : q = []
  · rw [hq, List.append_nil]
    exact reaches hleads h.descends_staging h.staging
  · rw [joinAll_eq_join (h.below q hq hL).1 hq]
    exact h.reaches_below hleads hq hL

/-- The names of a folder in the staging folder are fewer than the bytes of a path. -/
theorem length_lt (hleads : w.Leads b.way b.place) (hL : L.folder q) : q.length < maxPathBytes := by
  by_cases hq : q = []
  · rw [hq]
    decide
  · have hpath := h.reaches_below hleads hq (.inr hL)
    have hlength := hpath.length_le
    have hchars := Path.length_le_utf8ByteSize (Path.join (c.stagingFolder room) ("/".intercalate q))
    have hbytes := hpath.bytes
    have hscratch := List.length_pos_iff.mpr h.scratch.nonempty
    rw [List.length_append, Bench.staging, List.length_append, List.length_singleton] at hlength
    omega

end Fits

/-- What an operation on a site leaves alone. -/
theorem Site.of_alters (hw : Site b c room L t w) {make : List String → Prop}
    (halters : w.Alters (· = b.place ++ b.staging c room ++ q) make w')
    (hmake : ∀ p, make p → ∃ front, p = b.place ++ b.staging c room ++ front ∧ L.folder front)
    {face : Face} (hself : w'.top.face? (b.place ++ b.staging c room ++ q) = some face)
    (hface : L.Allows q face)
    (hfolder : w.top.face? (b.place ++ b.staging c room ++ q) ≠ some .folder ∨ face = .folder) :
    Site b c room L t w' ∧ ∀ p, w.top.face? p = some .folder → w'.top.face? p = some .folder := by
  have hfolders : ∀ p, w.top.face? p = some .folder → w'.top.face? p = some .folder := by
    intro p hp
    by_cases heq : p = b.place ++ b.staging c room ++ q
    · rcases hfolder with hne | rfl
      · exact absurd (heq ▸ hp) hne
      · exact heq ▸ hself
    · rcases halters.face p heq with hsame | ⟨-, hnone, -⟩
      · exact hsame.trans hp
      · rw [hp] at hnone
        cases hnone
  refine ⟨⟨⟨halters.tidy hw.tidy, hw.leads.stays halters.terrain hfolders, hfolders _ hw.ready,
    fun p found hp => ?_⟩, halters.terrain.trans hw.terrain, fun ending hending => ?_⟩, hfolders⟩
  · by_cases heq : p = q
    · subst heq
      rw [hself] at hp
      obtain rfl := Option.some.inj hp
      exact hface
    · rcases halters.face (b.place ++ b.staging c room ++ p)
        (fun h => heq (List.append_cancel_left h)) with hsame | ⟨hm, -, hfolder⟩
      · exact hw.laid p found (hsame ▸ hp)
      · rw [hfolder] at hp
        obtain rfl := Option.some.inj hp
        obtain ⟨front, hfront, hallowed⟩ := hmake _ hm
        exact List.append_cancel_left hfront ▸ hallowed
  · have hout : ∀ p, b.place ++ b.scratch ++ [c.exportName room ++ ending]
        ≠ b.place ++ b.staging c room ++ p := by
      intro p
      rw [Bench.staging, ← List.append_assoc]
      exact Config.ne_staging hending
    rcases halters.face _ (hout q) with hsame | ⟨hm, -, -⟩
    · exact hsame.trans (hw.clear ending hending)
    · obtain ⟨front, hfront, -⟩ := hmake _ hm
      exact absurd hfront (hout front)

/-- Where the layout has a folder there is one, or nothing. -/
theorem Site.folder_or_none (hw : Site b c room L t w) (hL : L.folder q) :
    w.top.face? (b.place ++ b.staging c room ++ q) = none
      ∨ w.top.face? (b.place ++ b.staging c room ++ q) = some .folder := by
  cases hface : w.top.face? (b.place ++ b.staging c room ++ q) with
  | none => exact .inl rfl
  | some face =>
      have hallowed := hw.laid q face hface
      cases face with
      | file content => exact absurd hL (L.disjoint q hallowed)
      | folder => exact .inr rfl
      | link target => exact hallowed.elim

/-- Where the layout has a file there is one, or nothing. -/
theorem Site.file_or_none (hw : Site b c room L t w) (hL : L.file q) :
    w.top.face? (b.place ++ b.staging c room ++ q) = none
      ∨ ∃ content, w.top.face? (b.place ++ b.staging c room ++ q) = some (.file content) := by
  cases hface : w.top.face? (b.place ++ b.staging c room ++ q) with
  | none => exact .inl rfl
  | some face =>
      have hallowed := hw.laid q face hface
      cases face with
      | file content => exact .inr ⟨content, rfl⟩
      | folder => exact absurd hallowed (L.disjoint q hL)
      | link target => exact hallowed.elim

theorem Site.isOpenWay (hw : Site b c room L t w) (hL : L.folder q) :
    IsOpenWay w.top b.place (b.staging c room ++ q) := by
  intro front hfront
  rcases List.prefix_or_prefix_of_prefix hfront (List.prefix_append _ _) with
    habove | ⟨more, rfl⟩
  · exact .inr ((OpensWay.refl hw.ready).folder front habove)
  · rw [← List.append_assoc]
    exact hw.folder_or_none (Layout.folder_of_prefix hL ((List.prefix_append_right_inj _).mp hfront))

/-- A folder that the layout has can be made. -/
theorem Site.exists_makeFolders (hw : Site b c room L t w) (hL : L.folder q)
    (hpath : w.Reaches b.place (b.staging c room ++ q) path) :
    ∃ w', (FileAction.makeFolders path).runOn w = (.ok (), w') ∧ Site b c room L t w'
      ∧ w.Alters (fun _ => False)
        (fun p => ∃ front, front <+: q ∧ p = b.place ++ b.staging c room ++ front) w'
      ∧ w'.top.face? (b.place ++ b.staging c room ++ q) = some .folder := by
  obtain ⟨w', hrun, hopens⟩ :=
    FileAction.exists_makeFolders hpath.toDescent (hw.isOpenWay hL) hpath.bytes
  rw [if_pos hpath.short] at hrun
  rw [shortNames_eq_self hpath.short] at hopens
  have hself := hopens.folder _ (List.prefix_refl _)
  rw [← List.append_assoc] at hself
  -- What leads to the staging folder is there, so nothing is made but what is below it.
  have hbelow : w.Alters (fun _ => False)
      (fun p => ∃ front, front <+: q ∧ p = b.place ++ b.staging c room ++ front) w' := by
    refine ⟨hopens.alters.terrain, hopens.alters.tidy, fun p hp => ?_⟩
    rcases hopens.alters.face p hp with hsame | ⟨⟨front, hfront, -, rfl⟩, hnone, hfolder⟩
    · exact .inl hsame
    · rcases List.prefix_or_prefix_of_prefix hfront (List.prefix_append _ _) with
        habove | ⟨more, rfl⟩
      · rw [(OpensWay.refl hw.ready).folder front habove] at hnone
        cases hnone
      · refine .inr ⟨⟨more, (List.prefix_append_right_inj _).mp hfront, ?_⟩, hnone, hfolder⟩
        rw [List.append_assoc]
  refine ⟨w', hrun, ?_, hbelow, hself⟩
  refine (hw.of_alters (hbelow.mono (fun _ h => h.elim) fun p hp => .inr hp) ?_ hself hL
    (.inr rfl)).1
  rintro p ⟨front, hfront, rfl⟩
  exact ⟨front, rfl, Layout.folder_of_prefix hL hfront⟩

/-- A file that the layout has can be written if its folder is there. -/
theorem Site.exists_write (hw : Site b c room L t w) (hL : L.file (q ++ [name]))
    (hpath : w.Reaches b.place (b.staging c room ++ (q ++ [name])) path)
    (hfolder : w.top.face? (b.place ++ b.staging c room ++ q) = some .folder)
    (content : ByteArray) :
    ∃ w', (writeBytes path content).runOn w = (.ok (), w') ∧ Site b c room L t w'
      ∧ w.Alters (· = b.place ++ b.staging c room ++ (q ++ [name])) (fun _ => False) w'
      ∧ w'.top.face? (b.place ++ b.staging c room ++ (q ++ [name])) = some (.file content) := by
  have heq : b.place ++ (b.staging c room ++ q) ++ [name]
      = b.place ++ b.staging c room ++ (q ++ [name]) := by simp
  have hplace := hw.file_or_none hL
  rw [← heq] at hplace
  rw [← List.append_assoc] at hpath
  rw [List.append_assoc] at hfolder
  obtain ⟨w', hrun, halters, hself⟩ := exists_writeBytes hpath hfolder hplace content
  rw [heq] at halters hself
  refine ⟨w', hrun, ?_, halters, hself⟩
  refine (hw.of_alters halters (fun _ h => h.elim) hself hL (.inl ?_)).1
  rcases hw.file_or_none hL with hnone | ⟨before, hfile⟩
  · rw [hnone]
    simp
  · rw [hfile]
    simp

/-! ## Copying -/

variable {children : List (String × Entry)} {origin : List String}

theorem runOn_onPath {α : Type} {action : FileAction FileFault α} {a : α}
    (h : action.runOn w = (.ok a, w')) (path : String) :
    (onPath path action).runOn w = (.ok a, w') := by
  rw [onPath, runOn_mapError, h]
  rfl

/-- A template beside the scratch folder, given by the names that lead to it and by what it holds. -/
structure Stock (b : Bench) (c : Config) (L : Layout) (origin : List String)
    (children : List (String × Entry)) : Prop where
  descends : Path.Descends b.way origin c.templateFolder
  usable : Path.IsUsable c.templateFolder
  beside : ¬ b.scratch <+: origin ∧ ¬ origin <+: b.scratch
  tidy : Tidy (.folder children)
  allowed : ∀ q entry, (Entry.folder children).get? q = some entry → L.Allows q entry.face
  below : ∀ q, q ≠ [] → (Entry.folder children).get? q ≠ none →
    Path.IsUsable (Path.join c.templateFolder ("/".intercalate q))

/-- What is in the template can be reached. -/
theorem Stock.reaches_joinAll (h : Stock b c L origin children) (hleads : w.Leads b.way b.place)
    {entry : Entry} (hentry : (Entry.folder children).get? q = some entry) :
    w.Reaches b.place (origin ++ q) (Path.joinAll c.templateFolder q) := by
  by_cases hq : q = []
  · subst hq
    rw [List.append_nil]
    exact reaches hleads h.descends h.usable
  · have hproper := proper_of_get? h.tidy hentry
    have hparts := Path.parts_intercalate_proper hproper hq
    have hjoin := h.descends.join ("/".intercalate q) (by rwa [hparts])
    rw [hparts] at hjoin
    rw [joinAll_eq_join hproper hq]
    exact reaches hleads hjoin (h.below q hq (by rw [hentry]; simp))

/-- A template that is there is found. -/
theorem Stock.isFolder (h : Stock b c L origin children) (hleads : w.Leads b.way b.place)
    (htemplate : w.top.get? (b.place ++ origin) = some (.folder children)) :
    w.isFolder c.templateFolder = true :=
  (reaches hleads h.descends h.usable).isFolder (face?_eq_folder_iff.mpr ⟨children, htemplate⟩)

/-- What is in the template is beside the staging folder. -/
theorem Stock.not_prefix (h : Stock b c L origin children) (room : String) (q : List String) :
    ¬ b.place ++ origin ++ q <+: b.place ++ b.scratch
      ∧ ¬ b.place ++ b.scratch ++ [c.exportName room] <+: b.place ++ origin ++ q := by
  have hbeside : ¬ b.place ++ b.scratch <+: b.place ++ origin
      ∧ ¬ b.place ++ origin <+: b.place ++ b.scratch := by
    simpa only [List.prefix_append_right_inj] using h.beside
  exact Config.not_prefix_beside (c.exportName room) hbeside q

theorem Stock.ne_staged (h : Stock b c L origin children) (room : String) (p q : List String) :
    b.place ++ origin ++ q ≠ b.place ++ b.staging c room ++ p := by
  intro heq
  refine (h.not_prefix room q).2 ⟨p, ?_⟩
  rw [heq, Bench.staging, ← List.append_assoc]

/-- What has been copied of the template is staged, and the template is as it was. -/
structure Copied (b : Bench) (c : Config) (room : String) (L : Layout) (t : Terrain)
    (origin : List String) (children : List (String × Entry))
    (done : List (List String × EntryKind)) (w : Workspace) : Prop where
  site : Site b c room L t w
  template : w.top.get? (b.place ++ origin) = some (.folder children)
  staged : ∀ item ∈ done, w.top.face? (b.place ++ b.staging c room ++ item.1)
    = some (faceAt (.folder children) item.1)

variable {done rest : List (List String × EntryKind)} {kind : EntryKind}

/-- One item more is copied by what sets it in the staging folder. -/
theorem Copied.next (h : Copied b c room L t origin children done w)
    (hstock : Stock b c L origin children) (hsite : Site b c room L t w')
    (halters : w.Alters (· = b.place ++ b.staging c room ++ names)
      (fun p => ∃ front, front <+: names ∧ p = b.place ++ b.staging c room ++ front) w')
    (hself : w'.top.face? (b.place ++ b.staging c room ++ names)
      = some (faceAt (.folder children) names)) :
    Copied b c room L t origin children (done ++ [(names, kind)]) w' := by
  refine ⟨hsite, ?_, ?_⟩
  · -- The template is neither in the staging folder nor around it.
    refine (get?_eq_of_face? h.site.tidy hsite.tidy fun q => ?_).trans h.template
    rcases halters.face _ (hstock.ne_staged room names q) with hsame | ⟨⟨front, -, heq⟩, -⟩
    · exact hsame
    · exact absurd heq (hstock.ne_staged room front q)
  · intro item hitem
    rcases List.mem_append.mp hitem with hold | hnew
    · by_cases heq : item.1 = names
      · rw [heq, hself]
      · rcases halters.face (b.place ++ b.staging c room ++ item.1)
          (fun h => heq (List.append_cancel_left h)) with hsame | ⟨-, hnone, -⟩
        · exact hsame.trans (h.staged item hold)
        · rw [h.staged item hold] at hnone
          cases hnone
    · obtain rfl := List.mem_singleton.mp hnew
      exact hself

/-- What holds an item of a tour has been visited before it. -/
theorem parent_mem_done (htidy : Tidy (.folder children))
    (htour : tourAll children = done ++ (names ++ [name], kind) :: rest) (hne : names ≠ []) :
    (names, EntryKind.folder) ∈ done := by
  have hitem : (names ++ [name], kind) ∈ tourAll children := by simp [htour]
  obtain ⟨-, found, hfound, -, -⟩ := (mem_tourAll_iff htidy).mp hitem
  have hthere : (Entry.folder children).face? (names ++ [name]) ≠ none := by
    rw [face?, hfound]
    simp
  have hfolder := face?_of_below hthere
  obtain ⟨kids, hkids⟩ := face?_eq_folder_iff.mp hfolder
  have hparent : (names, EntryKind.folder) ∈ tourAll children :=
    (mem_tourAll_iff htidy).mpr ⟨hne, _, hkids, rfl, by simp⟩
  have hsorted := pairwise_tourAll htidy
  have hbefore : ∀ front : List String, front < front ++ [name] := by
    intro front
    induction front with
    | nil => exact List.Lex.nil
    | cons n front ih => exact List.Lex.cons ih
  rw [htour] at hparent hsorted
  rcases List.mem_append.mp hparent with hdone | hlater
  · exact hdone
  · rcases List.mem_cons.mp hlater with heq | hrest
    · have hsame := (Prod.mk.inj heq).1
      rw [List.self_eq_append_right] at hsame
      cases hsame
    · have hafter := List.rel_of_pairwise_cons (List.pairwise_append.mp hsorted).2.1 hrest
      exact absurd (hbefore names) (List.lt_asymm hafter)

/-- The next item of the template can be copied. -/
theorem exists_copyItem (hfits : Fits b c room L) (hstock : Stock b c L origin children)
    (hw : Copied b c room L t origin children done w) {item : List String × EntryKind}
    (htour : tourAll children = done ++ item :: rest) :
    ∃ w', (visitItem (copyItem (c.stagingFolder room)) c.templateFolder item).runOn w = (.ok (), w')
      ∧ Copied b c room L t origin children (done ++ [item]) w' := by
  obtain ⟨names, kind⟩ := item
  have hitem : (names, kind) ∈ tourAll children := by simp [htour]
  obtain ⟨hne, found, hfound, rfl, hlink⟩ := (mem_tourAll_iff hstock.tidy).mp hitem
  have hallowed := hstock.allowed names found hfound
  have hface : faceAt (.folder children) names = found.face := by
    rw [faceAt, face?, hfound]
    rfl
  cases found with
  | link target => exact absurd rfl hlink
  | folder kids =>
      have hpath := hfits.reaches_below hw.site.leads hne (.inr hallowed)
      obtain ⟨w', hrun, hsite, halters, hself⟩ := hw.site.exists_makeFolders hallowed hpath
      refine ⟨w', runOn_onPath hrun _, hw.next hstock hsite ?_ (hface ▸ hself)⟩
      exact halters.mono (fun _ h => h.elim) fun _ h => .inr h
  | file content =>
      obtain ⟨front, name, rfl⟩ := (List.eq_nil_or_concat names).resolve_left hne
      rw [List.concat_eq_append] at *
      have hpath := hfits.reaches_below hw.site.leads hne (.inl hallowed)
      have hsource := hstock.reaches_joinAll hw.site.leads hfound
      have hread : w.top.face? (b.place ++ (origin ++ (front ++ [name]))) = some (.file content) := by
        rw [← List.append_assoc, face?, get?_append, hw.template, Option.bind_some, hfound]
        rfl
      have hfolder : w.top.face? (b.place ++ b.staging c room ++ front) = some .folder := by
        by_cases hfront : front = []
        · rw [hfront, List.append_nil]
          exact hw.site.ready
        · have hparent := parent_mem_done hstock.tidy htour hfront
          have hthere : (Entry.folder children).face? (front ++ [name]) ≠ none := by
            rw [face?, hfound]
            simp
          rw [hw.staged _ hparent, faceAt, face?_of_below hthere]
          rfl
      obtain ⟨w', hrun, hsite, halters, hself⟩ :=
        hw.site.exists_write hallowed hpath hfolder content
      have hitself : w.isSame (Path.joinAll c.templateFolder (front ++ [name]))
          (Path.join (c.stagingFolder room) ("/".intercalate (front ++ [name]))) = false := by
        have hdown : w.Reaches b.place (b.staging c room ++ front ++ [name]) _ :=
          (List.append_assoc _ _ _).symm ▸ hpath
        refine isSame_eq_false hsource hread hdown ?_ ?_ ?_
        · rwa [← List.append_assoc]
        · simpa only [List.append_assoc] using hw.site.file_or_none hallowed
        · intro heq
          refine hstock.ne_staged room (front ++ [name]) (front ++ [name]) ?_
          rw [List.append_assoc, heq]
          simp only [List.append_assoc]
      have hcopy : (copyFile (Path.joinAll c.templateFolder (front ++ [name]))
          (Path.join (c.stagingFolder room) ("/".intercalate (front ++ [name])))).runOn w
          = (.ok (), w') := by
        rw [runOn_copyFile hitself, runOn_bind_of_ok (runOn_readBytes hsource hread) hrun]
      refine ⟨w', runOn_onPath hcopy _, hw.next hstock hsite ?_ (hface ▸ hself)⟩
      exact halters.mono (fun _ h => h) fun _ h => h.elim

/-- **The template can be copied** into a staging folder that is ready. -/
theorem exists_copy (hfits : Fits b c room L) (hstock : Stock b c L origin children)
    (hw : Site b c room L t w) (htemplate : w.top.get? (b.place ++ origin) = some (.folder children)) :
    ∃ results w', (visitTree (copyItem (c.stagingFolder room)) c.templateFolder).runOn w
        = (.ok results, w')
      ∧ Copied b c room L t origin children (tourAll children) w' := by
  have hgoes : GoesOn c.templateFolder children (copyItem (c.stagingFolder room))
      (Copied b c room L t origin children) := by
    refine ⟨fun done v names kids hv hkids => ?_, fun done item rest v htour hv => ?_⟩
    · have hfolder : v.top.get? (b.place ++ (origin ++ names)) = some (.folder kids) := by
        rw [← List.append_assoc, get?_append, hv.template, Option.bind_some, hkids]
      exact runOn_listFolder (hstock.reaches_joinAll hv.site.leads hkids) hfolder
    · obtain ⟨v', hrun, hv'⟩ := exists_copyItem hfits hstock hv htour
      exact ⟨(), v', hrun, hv'⟩
  refine hgoes.exists_visitTree hstock.tidy (fun names kids hkids => ?_) ⟨hw, htemplate, by simp⟩
  exact hfits.length_lt hw.leads (hstock.allowed names _ hkids)

/-- A template can be staged once nothing is in the way. -/
theorem exists_fillStaging (hfits : Fits b c room L) (hstock : Stock b c L origin children)
    (ht : w.terrain = t) (htidy : w.top.Tidy) (hleads : w.Leads b.way b.place)
    (hopen : IsOpenWay w.top b.place (b.staging c room))
    (hfree : w.top.face? (b.place ++ b.staging c room) = none)
    (hclear : ∀ ending, ending ≠ "" →
      w.top.face? (b.place ++ b.scratch ++ [c.exportName room ++ ending]) = none)
    (htemplate : w.top.get? (b.place ++ origin) = some (.folder children)) :
    ∃ w', (fillStaging c.templateFolder (c.stagingFolder room)).runOn w = (.ok (), w')
      ∧ Copied b c room L t origin children (tourAll children) w' := by
  have hstaging := reaches hleads hfits.descends_staging hfits.staging
  obtain ⟨v, hmake, hopens⟩ :=
    FileAction.exists_makeFolders hstaging.toDescent hopen hstaging.bytes
  rw [if_pos hstaging.short] at hmake
  rw [shortNames_eq_self hstaging.short] at hopens
  -- Of all that the layout is about nothing but the staging folder has been made.
  have hkept : ∀ q, ¬ q <+: b.place ++ b.staging c room → v.top.face? q = w.top.face? q := by
    intro q hq
    rcases hopens.alters.face q id with hsame | ⟨⟨front, hfront, -, rfl⟩, -, -⟩
    · exact hsame
    · exact absurd ((List.prefix_append_right_inj _).mpr hfront) hq
  have hsite : Site b c room L t v := by
    refine ⟨⟨hopens.alters.tidy htidy, hleads.stays hopens.alters.terrain hopens.folders,
      hopens.folder _ (List.prefix_refl _), fun q face hface => ?_⟩,
      hopens.alters.terrain.trans ht, fun ending hending => ?_⟩
    · cases q with
      | nil =>
          rw [List.append_nil, hopens.folder _ (List.prefix_refl _)] at hface
          obtain rfl := Option.some.inj hface
          exact L.top
      | cons n more =>
          have hbelow : ¬ b.place ++ b.staging c room ++ n :: more <+: b.place ++ b.staging c room := by
            intro hpre
            have hlength := hpre.length_le
            simp only [List.length_append, List.length_cons] at hlength
            omega
          rw [hkept _ hbelow, face?_below (by rw [hfree]; simp)] at hface
          cases hface
    · refine (hkept _ fun hpre => ?_).trans (hclear ending hending)
      have heq := hpre.eq_of_length (by simp [Bench.staging])
      refine Config.ne_staging (q := []) hending (heq.trans ?_)
      rw [Bench.staging, List.append_nil, ← List.append_assoc]
  have hthere : v.top.get? (b.place ++ origin) = some (.folder children) := by
    refine (get?_eq_of_face? htidy hsite.tidy fun q => hkept _ fun hpre => ?_).trans htemplate
    have hout := hstock.not_prefix room q
    rw [Bench.staging, ← List.append_assoc, List.prefix_concat_iff] at hpre
    exact hpre.elim (fun heq => hout.2 ⟨[], by simp [heq]⟩) hout.1
  obtain ⟨results, w', hcopy, hw'⟩ := exists_copy hfits hstock hsite hthere
  refine ⟨w', ?_, hw'⟩
  rw [fillStaging_eq]
  exact runOn_bind_of_ok (runOn_onPath hmake _) (runOn_bind_of_ok hcopy rfl)

/-- Where there is no staging folder, nothing has to be cleared. -/
theorem runOn_clearStaging_of_missing (hfits : Fits b c room L) (hleads : w.Leads b.way b.place)
    (hopen : IsOpenWay w.top b.place (b.staging c room))
    (hfree : w.top.face? (b.place ++ b.staging c room) = none) :
    (clearStaging (c.stagingFolder room)).runOn w = (.ok (), w) := by
  have hnone : w.exists? (c.stagingFolder room) = false :=
    (reaches hleads hfits.descends_staging hfits.staging).exists?_eq_false hopen hfree
  rw [clearStaging, runOn_bind, runOn_look, hnone]
  rfl

/-! ## Writing -/

/-- The staging folder with a text in its routes file. -/
structure Routed (b : Bench) (c : Config) (room : String) (L : Layout) (t : Terrain) (text : String)
    (w : Workspace) : Prop where
  site : Site b c room L t w
  routes : w.top.face? (b.place ++ b.staging c room ++ routesNames) = some (.file text.toUTF8)

variable {text : String} {pages : List Page}

/-- A page can be written. -/
theorem exists_writePage (hfits : Fits b c room L) (hw : Routed b c room L t text w)
    {page : GeneratedPage} (hL : L.file page.route.fileNames) :
    ∃ w', (writePage (c.stagingFolder room) page).runOn w = (.ok (), w')
      ∧ Routed b c room L t text w' := by
  have hfile : Path.join (c.stagingFolder room) page.route.file
      = Path.join (c.stagingFolder room) ("/".intercalate page.route.fileNames) := by
    rw [Route.file_eq]
  have hsplit : page.route.fileNames
      = ["lib", "pages", page.route.slug] ++ [page.route.slug ++ "_page.dart"] := rfl
  have hne : page.route.fileNames ≠ routesNames := fun heq =>
    routesNames_not_above page.route (heq ▸ List.prefix_refl _)
  have hpath := hfits.reaches_below hw.site.leads (by simp [hsplit]) (.inl hL)
  rw [← hfile, hsplit, ← List.append_assoc] at hpath
  rw [hsplit] at hL hne
  obtain ⟨parent, hparent, hfolder⟩ := hpath.exists_parent (by simp)
  obtain ⟨v, hmake, hsite, halters, hready⟩ :=
    hw.site.exists_makeFolders (L.folder_of_file hL) hfolder
  rw [List.append_assoc] at hpath
  obtain ⟨w', hwrite, hsite', halters', -⟩ := hsite.exists_write hL
    (hpath.stays halters.terrain fun q hq =>
      (halters.face_of_ne_none id (by rw [hq]; simp)).trans hq) hready
    (String.ofList page.source).toUTF8
  refine ⟨w', ?_, hsite', ?_⟩
  · rw [writePage_eq, openParent, hparent]
    exact runOn_bind_of_ok (runOn_onPath hmake _) (runOn_onPath hwrite _)
  · have hopened := halters.face_of_ne_none id (by rw [hw.routes]; simp)
    have hwritten := halters'.face _ fun heq => hne (List.append_cancel_left heq).symm
    rw [hwritten.resolve_right fun h => h.1, hopened, hw.routes]

/-- **All pages can be written** if the layout has their files. -/
theorem exists_writePages (hfits : Fits b c room L) (hw : Routed b c room L t text w)
    (generated : List GeneratedPage) (hL : ∀ page ∈ generated, L.file page.route.fileNames) :
    ∃ w', (writePages (c.stagingFolder room) generated).runOn w = (.ok (), w')
      ∧ Routed b c room L t text w' := by
  unfold writePages
  induction generated generalizing w with
  | nil => exact ⟨w, rfl, hw⟩
  | cons page others ih =>
      obtain ⟨hpage, hothers⟩ := List.forall_mem_cons.mp hL
      obtain ⟨v, hfirst, hv⟩ := exists_writePage hfits hw hpage
      obtain ⟨w', hrest, hw'⟩ := ih hv hothers
      rw [List.forM_eq_forM, List.forM_cons]
      exact ⟨w', runOn_bind_of_ok hfirst hrest, hw'⟩

/-- **The routes can be patched** if the routes file has a table. -/
theorem exists_patchRoutesFile (hfits : Fits b c room L) (hw : Routed b c room L t text w)
    (hL : L.file routesNames) {patched : Text} (hpatch : patchPages text.toList pages = .ok patched) :
    ∃ w', (patchRoutesFile (c.stagingFolder room) (planRoutes pages)).runOn w = (.ok (), w')
      ∧ Site b c room L t w' := by
  have hpath := hfits.reaches_below hw.site.leads (by simp [routesNames]) (.inl hL)
  have hfile : "/".intercalate routesNames = routesFile := by decide +kernel
  rw [hfile] at hpath
  have hthere : w.top.face? (b.place ++ b.staging c room ++ ["lib", "app"] ++ ["routes.dart"]) ≠ none := by
    rw [List.append_assoc]
    exact hw.routes ▸ by simp
  have hfolder := face?_of_below hthere
  have hread := runOn_readText hpath (List.append_assoc b.place _ _ ▸ hw.routes)
  obtain ⟨w', hwrite, hsite, -, -⟩ := hw.site.exists_write (q := ["lib", "app"]) hL hpath hfolder
    (String.ofList patched).toUTF8
  refine ⟨w', ?_, hsite⟩
  unfold patchPages importLines tableEntries at hpatch
  have hfirst : ∀ fault : FileFault → ExportError, (FileAction.mapError fault
      (readText (Path.join (c.stagingFolder room) routesFile))).runOn w = (.ok text, w) := fun fault => by
    rw [runOn_mapError, hread]
    rfl
  unfold patchRoutesFile
  refine runOn_bind_of_ok (hfirst _) ?_
  dsimp only
  rw [hpatch]
  exact runOn_onPath hwrite _

/-! ## Archiving -/

/-- What stands in the staging folder has a place in the layout. -/
theorem Staged.allowed (hw : Staged b c room L w)
    (hchildren : w.top.get? (b.place ++ b.staging c room) = some (.folder children)) {entry : Entry}
    (hentry : (Entry.folder children).get? q = some entry) :
    w.top.get? (b.place ++ (b.staging c room ++ q)) = some entry ∧ L.Allows q entry.face := by
  have hthere : w.top.get? (b.place ++ b.staging c room ++ q) = some entry := by
    rw [get?_append, hchildren, Option.bind_some, hentry]
  refine ⟨List.append_assoc b.place _ _ ▸ hthere, hw.laid q _ ?_⟩
  rw [face?, hthere]
  rfl

theorem Fits.level_le (h : Fits b c room L) : 0 ≤ c.level ∧ c.level ≤ maxLevel := by
  have hlevel : 0 ≤ c.level ∧ c.level ≤ 9 := by
    by_contra hlevel
    have hfault := h.config
    rw [Config.fault?, Config.levelFault?, if_neg hlevel] at hfault
    cases Config.stemFault? c.stem <;> simp at hfault
  exact ⟨hlevel.1, Int.le_trans hlevel.2 (by decide)⟩

/-- What is staged can be listed and read. -/
theorem exists_visitStaged (hfits : Fits b c room L) (hw : Staged b c room L w)
    (folder path : String) :
    ∃ entries, (visitTree (archiveEntry folder path c.level) (c.stagingFolder room)).runOn w
      = (.ok entries, w) := by
  obtain ⟨children, hchildren⟩ := face?_eq_folder_iff.mp hw.ready
  have htidy : Tidy (.folder children) := hw.tidy.entry hchildren
  have hgoes : GoesOn (c.stagingFolder room) children (archiveEntry folder path c.level)
      (fun _ v => v = w) := by
    refine ⟨?_, ?_⟩
    · rintro done v names kids rfl hkids
      obtain ⟨hthere, hL⟩ := hw.allowed hchildren hkids
      exact runOn_listFolder (hfits.reaches_joinAll hw.leads (.inr hL)) hthere
    · rintro done ⟨names, kind⟩ rest v htour rfl
      have hitem : (names, kind) ∈ tourAll children := by simp [htour]
      obtain ⟨hne, found, hfound, rfl, hlink⟩ := (mem_tourAll_iff htidy).mp hitem
      obtain ⟨hthere, hL⟩ := hw.allowed hchildren hfound
      cases found with
      | link target => exact absurd rfl hlink
      | folder kids => exact ⟨_, v, rfl, rfl⟩
      | file content =>
          have hread := runOn_readBytes (hfits.reaches_joinAll hw.leads (.inl hL))
            (face?_eq_file_iff.mpr hthere)
          refine ⟨⟨"/".intercalate (folder :: names), content⟩, v, ?_, rfl⟩
          simp only [visitItem, archiveEntry, Entry.kind, if_pos hfits.level_le]
          exact runOn_bind_of_ok (runOn_onPath hread _) rfl
  obtain ⟨entries, w', hrun, rfl⟩ := hgoes.exists_visitTree htidy
    (fun names kids hkids => hfits.length_lt hw.leads (hw.allowed hchildren hkids).2) rfl
  exact ⟨entries, hrun⟩

/-- What is beside the staging folder makes no difference to what is staged. -/
theorem Staged.of_alters (hw : Staged b c room L w) {ending : String} (hending : ending ≠ "")
    (halters : w.Alters (· = b.place ++ b.scratch ++ [c.exportName room ++ ending])
      (fun _ => False) w')
    (hfree : w.top.face? (b.place ++ b.scratch ++ [c.exportName room ++ ending]) ≠ some .folder) :
    Staged b c room L w' := by
  have hfolders : ∀ q, w.top.face? q = some .folder → w'.top.face? q = some .folder := by
    intro q hq
    have hne : q ≠ b.place ++ b.scratch ++ [c.exportName room ++ ending] := by
      rintro rfl
      exact hfree hq
    exact ((halters.face q hne).resolve_right fun h => h.1).trans hq
  refine ⟨halters.tidy hw.tidy, hw.leads.stays halters.terrain hfolders, hfolders _ hw.ready,
    fun q face hface => hw.laid q face ?_⟩
  have hout : b.place ++ b.staging c room ++ q
      ≠ b.place ++ b.scratch ++ [c.exportName room ++ ending] := by
    rw [Bench.staging, ← List.append_assoc]
    exact (Config.ne_staging hending).symm
  rwa [(halters.face _ hout).resolve_right fun h => h.1] at hface

theorem Site.scratch (hw : Site b c room L t w) : w.top.face? (b.place ++ b.scratch) = some .folder := by
  have hthere : w.top.face? (b.place ++ b.scratch ++ [c.exportName room]) ≠ none := by
    rw [List.append_assoc]
    exact hw.ready ▸ by simp
  exact face?_of_below hthere

/-- What is staged can be compressed. -/
theorem exists_compress (hfits : Fits b c room L) (hw : Site b c room L t w) (folder : String) :
    ∃ content w', (compress (c.stagingFolder room) (partialPath (c.archivePath room)) folder
        c.level).runOn w = (.ok (), w')
      ∧ w'.Leads b.way b.place
      ∧ w.Alters (· = b.place ++ b.scratch ++ [c.exportName room ++ ".zip.partial"])
        (fun _ => False) w'
      ∧ w'.top.face? (b.place ++ b.scratch ++ [c.exportName room ++ ".zip.partial"])
        = some (.file content) := by
  have hpartial := hw.clear ".zip.partial" (by decide)
  -- The unfinished archive is written twice, first without content.
  obtain ⟨v, hfirst, halters, hempty⟩ := exists_writeBytes (hfits.reaches_unfinished hw.leads)
    hw.scratch (.inl hpartial) .empty
  have hstaged := hw.toStaged.of_alters (by decide) halters (by rw [hpartial]; simp)
  have hscratch : v.top.face? (b.place ++ b.scratch) = some .folder :=
    (halters.face_of_ne_none (by simp) (by rw [hw.scratch]; simp)).trans hw.scratch
  obtain ⟨entries, hvisit⟩ := exists_visitStaged hfits hstaged folder (partialPath (c.archivePath room))
  obtain ⟨w', hlast, halters', hcontent⟩ := exists_writeBytes (hfits.reaches_unfinished hstaged.leads)
    hscratch (.inr ⟨_, hempty⟩) (Archive.write (⟨folder ++ "/", .empty⟩ :: entries))
  have hstaged' := hstaged.of_alters (by decide) halters' (by rw [hempty]; simp)
  exact ⟨_, w', runOn_bind_of_ok (runOn_onPath hfirst _) (runOn_bind_of_ok hvisit
    (runOn_onPath hlast _)), hstaged'.leads, halters.trans halters', hcontent⟩

/-- **The archive can be written** once all is staged. -/
theorem exists_writeArchive (hfits : Fits b c room L) (hw : Site b c room L t w) (folder : String) :
    ∃ w', (writeArchive (c.stagingFolder room) (c.archivePath room) folder c.level).runOn w
      = (.ok (), w') := by
  obtain ⟨parent, hparent, hfolder⟩ :=
    (hfits.reaches_archive hw.leads).exists_parent hfits.scratch.nonempty
  have hopen : (openParent (c.archivePath room)).runOn w = (.ok (), w) := by
    rw [openParent, hparent]
    exact runOn_onPath (runOn_makeFolders_of_folder hfolder.toDescent hfolder.bytes hfolder.short
      hw.scratch) _
  obtain ⟨content, v, hcompress, hleads, halters, hcontent⟩ := exists_compress hfits hw folder
  have hfree : v.top.face? (b.place ++ b.scratch ++ [c.exportName room ++ ".zip"]) = none := by
    rw [(halters.face _ (by simp)).resolve_right fun h => h.1]
    exact hw.clear ".zip" (by decide)
  have hscratch : v.top.face? (b.place ++ b.scratch) = some .folder :=
    (halters.face_of_ne_none (by simp) (by rw [hw.scratch]; simp)).trans hw.scratch
  obtain ⟨w', hrename⟩ := exists_renameFile (hfits.reaches_unfinished hleads)
    (hfits.reaches_archive hleads) (face?_eq_file_iff.mp hcontent) (by simp) hscratch
    (by rw [hfree]; simp)
  have hattempt : (attempt (compress (c.stagingFolder room) (partialPath (c.archivePath room)) folder
      c.level) : ExportAction _).runOn w = (.ok (.ok ()), v) := by
    rw [runOn_attempt, hcompress]
  refine ⟨w', ?_⟩
  rw [writeArchive_eq]
  exact runOn_bind_of_ok hopen (runOn_bind_of_ok hattempt (runOn_onPath hrename _))

/-! ## Exports -/

/-- **An export succeeds** if its template has a routes file with a table, the layout has room for
its pages, its paths are not too long, and nothing of an older export is in the way once a staging
folder that is left of it has been cleared. -/
theorem exists_exportRoom {store : Store} (hfits : Fits b c room L)
    (hstock : Stock b c L origin children) (hfound : w.isFolder c.templateFolder = true)
    (hcleared : (clearStaging (c.stagingFolder room)).runOn w = (.ok (), v))
    (htidy : v.top.Tidy) (hleads : v.Leads b.way b.place)
    (hopen : IsOpenWay v.top b.place (b.staging c room))
    (hfree : v.top.face? (b.place ++ b.staging c room) = none)
    (hclear : ∀ ending, ending ≠ "" →
      v.top.face? (b.place ++ b.scratch ++ [c.exportName room ++ ending]) = none)
    (htemplate : v.top.get? (b.place ++ origin) = some (.folder children))
    (hroutes : (Entry.folder children).face? routesNames = some (.file text.toUTF8))
    {patched : Text} (hpatch : patchPages text.toList pages = .ok patched)
    (hpages : (store.pages room).runOn w = (.ok pages, w))
    (hfiles : ∀ route ∈ planRoutes pages, L.file route.fileNames) :
    ∃ w', (exportRoom c store room).runOn w
      = (.ok ⟨room, c.archivePath room, planRoutes pages⟩, w') := by
  obtain ⟨w₁, hfill, hcopied⟩ := exists_fillStaging hfits hstock rfl htidy hleads hopen hfree
    hclear htemplate
  have hcheck : (checkTemplate c.templateFolder).runOn w = (.ok (), w) := by
    rw [checkTemplate, runOn_bind, runOn_look, hfound]
    rfl
  have hstage : (stageTemplate c.templateFolder (c.stagingFolder room)).runOn w = (.ok (), w₁) := by
    rw [stageTemplate_eq]
    exact runOn_bind_of_ok hcheck (runOn_bind_of_ok hcleared hfill)
  obtain ⟨entry, hentry, hfile⟩ := Option.map_eq_some_iff.mp hroutes
  have hrouted : Routed b c room L v.terrain text w₁ := by
    refine ⟨hcopied.site, ?_⟩
    have hitem : (routesNames, EntryKind.file) ∈ tourAll children := by
      refine (mem_tourAll_iff hstock.tidy).mpr ⟨by simp [routesNames], entry, hentry, ?_, ?_⟩ <;>
        cases entry <;> simp_all [face, Entry.kind]
    rw [hcopied.staged _ hitem, faceAt, hroutes]
    rfl
  obtain ⟨w₂, hwrite, hwritten⟩ := exists_writePages hfits hrouted (compilePages pages)
    fun page hpage => hfiles _ (mem_planRoutes hpage)
  have hL : L.file routesNames := by
    have hallowed := hstock.allowed routesNames entry hentry
    rwa [hfile] at hallowed
  obtain ⟨w₃, hpatched, hsite⟩ := exists_patchRoutesFile hfits hwritten hL hpatch
  obtain ⟨w₄, harchive⟩ := exists_writeArchive hfits hsite (c.exportName room)
  have hpack : (package c room (compilePages pages)).runOn w = (.ok (), w₄) := by
    have hmap : (compilePages pages).map GeneratedPage.route = planRoutes pages :=
      map_route_compilePages pages
    unfold package
    dsimp only
    rw [hmap]
    exact runOn_bind_of_ok hstage (runOn_bind_of_ok hwrite (runOn_bind_of_ok hpatched harchive))
  have hattempt : (attempt (package c room (compilePages pages)) : ExportAction _).runOn w
      = (.ok (.ok ()), w₄) := by
    rw [runOn_attempt, hpack]
  have hclean := cleanUp_eq_ok (c.stagingFolder room) w₄
  refine ⟨((cleanUp (c.stagingFolder room)).runOn w₄).2, ?_⟩
  refine runOn_bind_of_ok hpages (runOn_bind_of_ok hattempt (runOn_bind_of_ok (Prod.ext hclean rfl) ?_))
  dsimp only
  rw [show (compilePages pages).map GeneratedPage.route = planRoutes pages from
    map_route_compilePages pages]
  rfl

end Package

/-! ## What is in the way -/

namespace Config.Grounded

variable {c : Config} {t : Terrain} {room : String} (h : c.Grounded t room)
variable {S : List String} {w w' : Workspace}
include h

/-- An archive does not take the place of a folder. -/
theorem not_folder_of_writeArchive (ht : w.terrain = t) (htidy : w.top.Tidy)
    (hS : t.aim true c.scratchFolder = some S) {folder : String} {level : Int}
    (hrun : (writeArchive (c.stagingFolder room) (c.archivePath room) folder level).runOn w
      = (.ok (), w')) :
    w.top.face? (S ++ [c.exportName room ++ ".zip"]) ≠ some .folder := by
  intro hfolder
  obtain ⟨between, hfilled, ⟨-, e, herror⟩ | ⟨⟨moved, hrename, hresult⟩, place, name, content, hfile⟩⟩ :=
    h.writeArchive_cases ht htidy hrun
  · cases herror
  · have hterrain := hfilled.terrain.trans ht
    obtain ⟨front, hfront, htarget, ⟨e, -, rfl⟩ | ⟨-, hmoved⟩⟩ :=
      h.rename_cases hterrain hfile hrename
    · cases hresult
    · obtain rfl := Option.some.inj (hS.symm.trans hfront)
      obtain ⟨-, -, hnot⟩ := hmoved.face? (by simp [face]) (hfilled.tidy htidy) (hterrain ▸ htarget)
        (hterrain ▸ h.aim_partial hS)
      have hout : ¬ c.Fills t room (S ++ [c.exportName room ++ ".zip"]) := fun hfills =>
        not_stages_archive ((inScratch_iff hS).mpr rfl) (stages_of_fills hfills)
      exact hnot ((hfilled.face_of_ne_none hout (by rw [hfolder]; simp)).trans hfolder)

end Config.Grounded

/-- **No export succeeds while a folder is in the place of its archive.** -/
theorem exportRoom_ne_ok_of_folder {c : Config} {room : String} {store : Store} {w w' : Workspace}
    {S : List String} (hc : c.fault? = none) (hroom : IsRoomText room) (hstore : store.IsLookup)
    (htidy : w.top.Tidy) (hplain : w.terrain.IsPlain c.scratchFolder)
    (hS : w.terrain.aim true c.scratchFolder = some S)
    (hfolder : w.top.face? (S ++ [c.exportName room ++ ".zip"]) = some .folder)
    (report : ExportReport) : (exportRoom c store room).runOn w ≠ (.ok report, w') := by
  intro hrun
  have h := Config.grounded hc hroom hplain
  obtain ⟨pages, packed, -, hpack, -⟩ := exportRoom_ok_cases hstore hrun
  rw [package_eq] at hpack
  obtain ⟨_, checked, hcheck, hrest⟩ := runOn_bind_eq_ok hpack
  obtain ⟨rfl, -⟩ := checkTemplate_cases hcheck
  obtain ⟨_, w₁, hclear, hrest⟩ := runOn_bind_eq_ok hrest
  obtain ⟨_, w₂, hfill, hrest⟩ := runOn_bind_eq_ok hrest
  obtain ⟨_, w₃, hwrite, hrest⟩ := runOn_bind_eq_ok hrest
  obtain ⟨_, w₄, hpatch, hrest⟩ := runOn_bind_eq_ok hrest
  have hcleared := (h.does_clearStaging checked _ w₁ rfl htidy hclear).1
  have hstaged : Does checked.terrain (c.Fills checked.terrain room) (c.Opens checked.terrain room) (do
      fillStaging c.templateFolder (c.stagingFolder room)
      writePages (c.stagingFolder room) (compilePages pages)
      patchRoutesFile (c.stagingFolder room) ((compilePages pages).map GeneratedPage.route))
      fun _ => True :=
    (h.does_fillStaging _).bind fun _ _ => (h.does_writePages pages).bind fun _ _ =>
      h.does_patchRoutesFile _
  have hfilled := (hstaged w₁ _ w₄ hcleared.terrain (hcleared.tidy htidy)
    (runOn_bind_of_ok hfill (runOn_bind_of_ok hwrite hpatch))).1
  have halters := hcleared.trans (hfilled.mono (fun _ => Config.stages_of_fills)
    fun _ => Config.stages_of_opens)
  have hin : c.InScratch checked.terrain [c.exportName room ++ ".zip"]
      (S ++ [c.exportName room ++ ".zip"]) :=
    (Config.inScratch_iff hS).mpr rfl
  have hout := Config.not_stages_archive hin
  refine h.not_folder_of_writeArchive halters.terrain (halters.tidy htidy) hS hrest ?_
  exact (halters.face_of_ne_none hout (by rw [hfolder]; simp)).trans hfolder

end CanvasFlutter
