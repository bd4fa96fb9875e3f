import CanvasFlutter.Proofs.Export.Tidy
import CanvasFlutter.Proofs.Workspace.Gap
import CanvasFlutter.Proofs.Workspace.Moving

namespace CanvasFlutter

/-!
# `CanvasFlutter.Proofs.Export.Spared` — files that an export leaves alone

An export follows the links in its way like any path, so what it may change depends on where its
paths lead. That counts at two moments: when the export begins, for what it clears, and once its
staging folder is clear, for what it fills and writes. A file that is in the way at neither moment
stays as it is. Links that are in the way do not matter, unless one leads the unfinished archive to
the file.

## Contents
- **Files.** `Config.Spares`; `Settled.spares`: where the room has no links it is enough to be outside.
- **Clearing.** `keeps_cleared`; `linkless_of_isFirm`: once the staging folder is clear there is no
  link in its place, if its path goes up from what is there only.
- **Packing.** `Config.Finishes.keeps`, `keeps_package`.
- **Exports.** `exportRoom_keeps`.
-/

open Entry Package FileAction

/-! ## Files -/

namespace Config

variable {c : Config} {t : Terrain} {room : String} {w w' : Workspace} {q : List String}
variable {content : ByteArray}

/-- The workspace once a stale staging folder has been cleared. -/
def cleared (c : Config) (room : String) (w : Workspace) : Workspace :=
  ((clearStaging (c.stagingFolder room)).runOn w).2

/-- The staging folder can be cleared and made. -/
def Prepares (c : Config) (room : String) (w : Workspace) : Prop :=
  ((clearStaging (c.stagingFolder room)).runOn w).1 = .ok ()
    ∧ ((makeFolders (c.stagingFolder room)).runOn (c.cleared room w)).1 = .ok ()

/-- An export leaves a place alone: the place is not in the staging folder, neither at first nor once
that is clear, and if the staging folder can be made then, the place is neither that of the archive
nor what the path of the unfinished archive leads to. And then either the path of the scratch folder
is firm, or there are no links in the staging folder or its place. -/
structure Spares (c : Config) (room : String) (w : Workspace) (q : List String) : Prop where
  first : ¬ c.Houses w.terrain room q
  clear : ¬ c.Houses (c.cleared room w).terrain room q
  archive : c.Prepares room w →
    ¬ c.InScratch (c.cleared room w).terrain [c.exportName room ++ ".zip"] q
  unwritten : c.Prepares room w →
    (c.cleared room w).terrain.aim true (partialPath (c.archivePath room)) ≠ some q
  firm : c.Prepares room w → (c.cleared room w).IsFirm c.scratchFolder
    ∨ ∀ p, c.Houses (c.cleared room w).terrain room p → (c.cleared room w).terrain.links p = none

theorem houses_of_beneath {place : List String} (hplace : c.InScratch t [c.exportName room] place)
    (hq : place <+: q) : c.Houses t room q := by
  obtain ⟨folder, hfolder, rfl⟩ := hplace
  obtain ⟨more, rfl⟩ := hq
  exact ⟨more, folder, hfolder, by simp⟩

theorem inScratch_of_resolve (hname : ProperName (c.exportName room)) {spot : Spot}
    (h : w.resolve false (c.stagingFolder room) = .ok spot) :
    c.InScratch w.terrain [c.exportName room] spot.place :=
  inScratch_of_aim (w.terrain.aim_join_name c.scratchFolder hname) (Workspace.aim_of_resolve h)

/-- The folder that the path of the staging folder leads to does not hold this place. -/
def Misses (c : Config) (room : String) (w : Workspace) (q : List String) : Prop :=
  ∀ place children, w.resolve false (c.stagingFolder room) = .ok (.taken place (.folder children)) →
    ¬ place <+: q

theorem misses_of_not_houses (hname : ProperName (c.exportName room))
    (hq : ¬ c.Houses w.terrain room q) : c.Misses room w q := fun _ _ hresolve hprefix =>
  hq (houses_of_beneath (inScratch_of_resolve hname hresolve) hprefix)

/-! ## Clearing -/

theorem cleared_cases (c : Config) (room : String) (w : Workspace) : c.cleared room w = w
    ∨ ∃ removed, (removeTree (c.stagingFolder room)).runOn w = (removed, c.cleared room w) := by
  have hrun : (clearStaging (c.stagingFolder room)).runOn w = (_, c.cleared room w) := rfl
  rcases clearStaging_cases hrun with ⟨hsame, -⟩ | ⟨removed, hremove, -⟩
  · exact .inl hsame
  · exact .inr ⟨removed, hremove⟩

theorem keeps_cleared (hfile : w.top.face? q = some (.file content)) (hq : c.Misses room w q) :
    (c.cleared room w).top.face? q = some (.file content) := by
  rcases c.cleared_cases room w with hsame | ⟨removed, hremove⟩
  · rw [hsame, hfile]
  · exact keeps_removeTree hfile hq hremove

/-- Where there are no links among what is staged the staging folder is cleared in its place, so it
is enough that the place does not belong to the room. -/
theorem Settled.spares (h : c.Settled w.terrain room) (htidy : w.top.Tidy)
    (hq : ¬ c.Owns w.terrain room q) : c.Spares room w q := by
  have hterrain : (c.cleared room w).terrain = w.terrain :=
    (h.does_clearStaging.alters rfl htidy).terrain
  refine ⟨fun hin => hq (.inl hin), ?_, fun _ => ?_, fun _ => ?_, fun _ => .inr ?_⟩
  all_goals rw [hterrain]
  · exact fun hin => hq (.inl hin)
  · exact fun hin => hq (.inr (.inl hin))
  · exact fun haim => hq (.inr (.inr (inScratch_of_aim h.aim_partialPath haim)))
  · exact h.linkless

/-- Once the staging folder has been cleared its path leads to no folder. -/
theorem isFolder_of_clearStaging (h : (clearStaging (c.stagingFolder room)).runOn w = (.ok (), w')) :
    w'.isFolder (c.stagingFolder room) = false := by
  rw [← Bool.not_eq_true, Workspace.isFolder_eq_true_iff]
  rintro ⟨place, children, hfolder⟩
  rcases clearStaging_cases h with ⟨rfl, -, hmissing⟩ | ⟨removed, hremove, hok⟩
  · have hthere := Workspace.exists?_eq_true_iff.mpr ⟨place, _, hfolder⟩
    rw [hthere] at hmissing
    cases hmissing
  · cases removed with
    | ok _ => exact resolve_removeTree_ne hremove _ _ hfolder
    | error fault => cases hok

/-- Where a staging folder can be made nothing is there, or else its path leads to a folder. -/
theorem face?_of_makeFolders (hname : ProperName (c.exportName room))
    (hfirm : w.IsFirm c.scratchFolder) {place : List String}
    (hplace : w.terrain.aim true c.scratchFolder = some place)
    (hmake : ((makeFolders (c.stagingFolder room)).runOn w).1 = .ok ())
    (hnot : w.isFolder (c.stagingFolder room) = false) :
    w.top.face? (place ++ [c.exportName room]) = none := by
  have hparts := Path.parts_proper hname
  have hpath : c.stagingFolder room ≠ "" := Path.join_ne_empty _ hname.ne_empty
  rcases makeFolders_idle_or_free hpath Prod.mk.eta.symm with ⟨-, hfolder⟩ |
    ⟨-, p, hp, q, n, asFolder, hfree⟩
  · rw [hfolder hmake] at hnot
    cases hnot
  -- Something was made on the way, so the scratch path leads to a folder or has a gap.
  · rcases Workspace.exists_leads_or_gap hfirm (by simpa [hparts] using hname) hp hfree with
      ⟨folder, hleads⟩ | ⟨folder, names, hgap⟩
    · have haim : w.terrain.aim true c.scratchFolder = some folder := by
        rw [Terrain.aim_eq_steps]
        exact hleads.aimFrom
      obtain rfl := Option.some.inj (haim.symm.trans hplace)
      exact hleads.face?_eq_none hname hp hfree
    · obtain rfl := Option.some.inj (hgap.aim.symm.trans hplace)
      exact hgap.face?_eq_none (List.prefix_refl _) hgap.nonempty [c.exportName room]

/-- **Once the staging folder is clear there is no link in its place**, if its path goes up from what
is there only and it can be made. -/
theorem linkless_of_isFirm (hname : ProperName (c.exportName room)) (hready : c.Prepares room w)
    (hfirm : (c.cleared room w).IsFirm c.scratchFolder) (p : List String)
    (hp : c.Houses (c.cleared room w).terrain room p) :
    (c.cleared room w).terrain.links p = none := by
  obtain ⟨hclear, hmake⟩ := hready
  obtain ⟨more, place, hplace, rfl⟩ := hp
  have hgone : (c.cleared room w).top.face? (place ++ [c.exportName room]) = none :=
    face?_of_makeFolders hname hfirm hplace hmake (isFolder_of_clearStaging (Prod.ext hclear rfl))
  show (c.cleared room w).link? _ = none
  rw [Workspace.link?, List.append_cons, Workspace.face?_below_missing hgone]

theorem Spares.housed (h : c.Spares room w q) (hc : c.fault? = none) (hroom : IsRoomText room)
    (hready : c.Prepares room w) : c.Housed (c.cleared room w).terrain room :=
  Config.housed hc hroom <| (h.firm hready).elim
    (linkless_of_isFirm (properName_staging hc hroom) hready) id

/-- A file that is not written is not in the place of the unfinished archive. -/
theorem Spares.not_partial (h : c.Spares room w q)
    (hhoused : c.Housed (c.cleared room w).terrain room) (hready : c.Prepares room w)
    (hfile : (c.cleared room w).top.face? q = some (.file content)) :
    ¬ c.InScratch (c.cleared room w).terrain [c.exportName room ++ ".zip.partial"] q := by
  rintro ⟨folder, hfolder, rfl⟩
  have haim := hhoused.aim_unfinished
  rw [hfolder, Option.map_some] at haim
  refine h.unwritten hready (Terrain.aimFrom_follow haim ?_)
  show (c.cleared room w).link? _ = none
  rw [Workspace.link?, hfile]

/-! ## Packing -/

/-- What the path of the unfinished archive leads to is in the scratch folder, as a file or by a link
to one. -/
theorem Housed.aim_of_partial (h : c.Housed w.terrain room) {place : List String}
    (hfile : w.resolve true (partialPath (c.archivePath room)) = .ok (.taken place (.file content))) :
    ∃ folder, w.terrain.aim true c.scratchFolder = some folder
      ∧ w.terrain.aim false (c.archivePath room) = some (folder ++ [c.exportName room ++ ".zip"])
      ∧ w.terrain.aim false (partialPath (c.archivePath room))
        = some (folder ++ [c.exportName room ++ ".zip.partial"]) := by
  have hparts := Path.parts_proper h.unfinished
  rw [partialPath_archivePath h.archive.ne_empty] at hfile
  obtain ⟨folder, -, hfolder⟩ :=
    Workspace.exists_leads_of_join (by simpa [hparts] using h.unfinished) hfile
  refine ⟨folder, hfolder, ?_, ?_⟩
  · rw [h.aim_archivePath, hfolder, Option.map_some]
  · rw [h.aim_unfinished, hfolder, Option.map_some]

/-- **An archive that takes its place leaves other files alone**, and the path of the staging folder
leads to no folder that it did not lead to before. -/
theorem Moves.keeps (h : c.Housed w.terrain room) (htidy : w.top.Tidy)
    (hfile : w.top.face? q = some (.file content)) (hq : ¬ c.Houses w.terrain room q)
    (harchive : ¬ c.InScratch w.terrain [c.exportName room ++ ".zip"] q)
    (hpartial : ¬ c.InScratch w.terrain [c.exportName room ++ ".zip.partial"] q)
    {r : Except ExportError Unit} (hmoves : c.Moves room w r w') :
    w'.top.face? q = some (.file content) ∧ c.Misses room w' q := by
  obtain ⟨⟨moved, hrename, -⟩, place, name, archive, hcomplete⟩ := hmoves
  obtain ⟨folder, hfolder, haim, hsource⟩ := h.aim_of_partial hcomplete
  rcases renameFile_cases haim hrename with ⟨rfl, -⟩ | ⟨-, entry, hmoved⟩
  · exact ⟨hfile, misses_of_not_houses h.staging hq⟩
  have hentry := hmoved.face_ne_folder hcomplete
  refine ⟨?_, fun place children hresolve hprefix => ?_⟩
  · rw [hmoved.face?_of_ne hentry htidy haim hsource, hfile]
    · rintro rfl
      exact harchive ⟨folder, hfolder, rfl⟩
    · rintro rfl
      exact hpartial ⟨folder, hfolder, rfl⟩
  · obtain ⟨before, hbefore⟩ := hmoved.exists_resolve htidy haim hsource hcomplete hresolve
    exact hq (houses_of_beneath (inScratch_of_resolve h.staging hbefore) hprefix)

/-- What there is of an archive that is not completed is removed without harm to other files. -/
theorem keeps_removePartial (h : c.Housed w.terrain room)
    (hfile : w.top.face? q = some (.file content)) (hq : ¬ c.Houses w.terrain room q)
    (hpartial : ¬ c.InScratch w.terrain [c.exportName room ++ ".zip.partial"] q)
    {r : Except FileFault Unit}
    (hrun : (removeFile (partialPath (c.archivePath room))).runOn w = (r, w')) :
    w'.top.face? q = some (.file content) ∧ c.Misses room w' q := by
  rcases removeFile_cases hrun with rfl | ⟨front, name, entry, hresolve, hentry, rfl⟩
  · exact ⟨hfile, misses_of_not_houses h.staging hq⟩
  have hthere : w.top.get? (front ++ [name]) = some entry :=
    Workspace.holds_of_walk (Workspace.walk_of_resolve hresolve)
  have hin : c.InScratch w.terrain [c.exportName room ++ ".zip.partial"] (front ++ [name]) :=
    inScratch_of_aim h.aim_unfinished (Workspace.aim_of_resolve hresolve)
  refine ⟨?_, fun place children hfolder hprefix => ?_⟩
  · rw [face?_erase, if_neg, hfile]
    -- It is not the file, and what is no folder has nothing below it.
    rintro ⟨_ | ⟨n, more⟩, rfl⟩
    · exact hpartial (by simpa using hin)
    · rw [face?_below (by simpa [face?, hthere] using hentry)] at hfile
      cases hfile
  · have hfaces : ∀ p, (Entry.erase front name w.top).face? p = some .folder
        ∨ (∃ target, (Entry.erase front name w.top).face? p = some (.link target)) →
        w.top.face? p = (Entry.erase front name w.top).face? p := by
      intro p hp
      rw [face?_erase] at hp ⊢
      split at hp
      · simp at hp
      · next hnot => rw [if_neg hnot]
    obtain ⟨before, hbefore⟩ := Workspace.exists_resolve_of_faces (w := w)
      (v := { w with top := Entry.erase front name w.top }) rfl hfaces hfolder
    exact hq (houses_of_beneath (inScratch_of_resolve h.staging hbefore) hprefix)

/-- However an archive is finished, it leaves other files alone. -/
theorem Finishes.keeps (h : c.Housed w.terrain room) (htidy : w.top.Tidy)
    (hfile : w.top.face? q = some (.file content)) (hq : ¬ c.Houses w.terrain room q)
    (harchive : ¬ c.InScratch w.terrain [c.exportName room ++ ".zip"] q)
    (hpartial : ¬ c.InScratch w.terrain [c.exportName room ++ ".zip.partial"] q)
    {r : Except ExportError Unit} (hlast : c.Finishes room w r w') :
    w'.top.face? q = some (.file content) ∧ c.Misses room w' q := by
  rcases hlast with ⟨rfl | rfl, -⟩ | hmoves
  · exact ⟨hfile, misses_of_not_houses h.staging hq⟩
  · exact keeps_removePartial h hfile hq hpartial Prod.mk.eta.symm
  · exact hmoves.keeps h htidy hfile hq harchive hpartial

/-- If the staging folder cannot be made nothing is filled. -/
theorem runOn_fillStaging_error {fault : FileFault} {template staging : String}
    {next : Unit → ExportAction Unit}
    (h : (makeFolders staging).runOn w = (.error fault, w')) :
    (fillStaging template staging >>= next).runOn w = (.error (.file staging fault), w') := by
  have hfailed : (onPath staging (makeFolders staging)).runOn w
      = (.error (.file staging fault), w') := by
    rw [onPath, runOn_mapError, h]
    rfl
  rw [runOn_bind, fillStaging, runOn_bind, hfailed]

/-- Making folders is no harm to files, and bends no path. -/
theorem keeps_makeFolders (hname : ProperName (c.exportName room)) (htidy : w.top.Tidy)
    (hfile : w.top.face? q = some (.file content)) (hq : ¬ c.Houses w.terrain room q) {path : String}
    {r : Except FileFault Unit} (hrun : (makeFolders path).runOn w = (r, w')) :
    w'.top.face? q = some (.file content) ∧ c.Misses room w' q := by
  have hopens : Does w.terrain (fun _ => False) (fun _ => True) (makeFolders path) fun _ => True :=
    does_makeFolders fun _ _ => .inr trivial
  obtain ⟨halters, -⟩ := hopens w r w' rfl htidy hrun
  refine ⟨(halters.face_of_ne_none id (by simp [hfile])).trans hfile, ?_⟩
  exact misses_of_not_houses hname (halters.terrain ▸ hq)

/-- Once the staging folder is clear and can be made, what is filled, written and archived is all
elsewhere. -/
theorem Spares.keeps_fill (h : c.Spares room w q)
    (hhoused : c.Housed (c.cleared room w).terrain room) (hready : c.Prepares room w)
    (htidy : (c.cleared room w).top.Tidy)
    (hfile : (c.cleared room w).top.face? q = some (.file content)) {between : Workspace}
    {r : Except ExportError Unit}
    (hwrites : (c.cleared room w).Alters (c.Writes (c.cleared room w).terrain room)
      (c.Opens (c.cleared room w).terrain room) between)
    (hlast : c.Finishes room between r w') :
    w'.top.face? q = some (.file content) ∧ c.Misses room w' q := by
  have hpartial := h.not_partial hhoused hready hfile
  have hout : ¬ c.Writes (c.cleared room w).terrain room q := by
    rintro ((⟨n, more, hin⟩ | hin) | haim)
    · exact h.clear ⟨n :: more, hin⟩
    · exact hpartial hin
    · exact h.unwritten hready haim
  have hterrain := hwrites.terrain
  refine hlast.keeps (hterrain ▸ hhoused) (hwrites.tidy htidy) ?_ ?_ ?_ ?_
  · exact (hwrites.face_of_ne_none hout (by simp [hfile])).trans hfile
  · exact hterrain ▸ h.clear
  · exact hterrain ▸ h.archive hready
  · exact hterrain ▸ hpartial

/-- **Packing leaves a file alone** that the export spares, and the path of the staging folder leads
to no folder around it afterwards. -/
theorem keeps_package (hc : c.fault? = none) (hroom : IsRoomText room) (htidy : w.top.Tidy)
    (hfile : w.top.face? q = some (.file content)) (hspares : c.Spares room w q) {pages : List Page}
    {r : Except ExportError Unit}
    (hrun : (package c room (compilePages pages)).runOn w = (r, w')) :
    w'.top.face? q = some (.file content) ∧ c.Misses room w' q := by
  have hname := properName_staging hc hroom
  have hmisses := misses_of_not_houses hname hspares.first
  have hkept := keeps_cleared hfile hmisses
  have hkeptTidy : (c.cleared room w).top.Tidy := keepsTidy_clearStaging _ w htidy
  rw [package_eq] at hrun
  rcases runOn_bind_cases hrun with ⟨e, hcheck, -⟩ | ⟨_, checked, hcheck, hafter⟩
  · obtain ⟨rfl, -⟩ := checkTemplate_cases hcheck
    exact ⟨hfile, hmisses⟩
  obtain ⟨rfl, -⟩ := checkTemplate_cases hcheck
  rcases runOn_bind_cases hafter with ⟨e, hclear, -⟩ | ⟨_, cleared, hclear, hrest⟩
  · obtain rfl : c.cleared room checked = w' := congrArg Prod.snd hclear
    exact ⟨hkept, misses_of_not_houses hname hspares.clear⟩
  obtain rfl : c.cleared room checked = cleared := congrArg Prod.snd hclear
  cases hmake : (makeFolders (c.stagingFolder room)).runOn (c.cleared room checked) with
  | mk made opened =>
      cases made with
      | error fault =>
          rw [runOn_fillStaging_error hmake] at hrest
          obtain rfl := (Prod.mk.inj hrest).2
          exact keeps_makeFolders hname hkeptTidy hkept hspares.clear hmake
      | ok _ =>
          have hready : c.Prepares room checked :=
            ⟨congrArg Prod.fst hclear, congrArg Prod.fst hmake⟩
          have hhoused := hspares.housed hc hroom hready
          obtain ⟨between, hwrites, hlast⟩ := hhoused.ends_fill pages _ r w' rfl hkeptTidy hrest
          exact hspares.keeps_fill hhoused hready hkeptTidy hkept hwrites hlast

end Config

/-! ## Exports -/

variable {c : Config} {store : Store} {room : String} {w : Workspace} {q : List String}
variable {content : ByteArray}

theorem runOn_cleanUp (staging : String) (w : Workspace) : ((cleanUp staging).runOn w).2
    = if w.exists? staging then ((removeTree staging).runOn w).2 else w := by
  unfold cleanUp
  rw [runOn_bind, runOn_look]
  simp only
  split
  · rw [runOn_bind, runOn_attempt]
    rfl
  · rfl

/-- **An export leaves a file alone** that it spares, if its canvas can be loaded at all. -/
theorem exportRoom_keeps (hc : c.fault? = none) (hroom : IsRoomText room) (hstore : store.IsLookup)
    (htidy : w.top.Tidy) (hfile : w.top.face? q = some (.file content))
    (hspares : ∀ pages, ((store.pages room).runOn w).1 = .ok pages → c.Spares room w q) :
    ((exportRoom c store room).runOn w).2.top.face? q = some (.file content) := by
  rw [runOn_exportRoom hstore]
  cases hpages : ((store.pages room).runOn w).1 with
  | error e => exact hfile
  | ok pages =>
      show ((cleanUp (c.stagingFolder room)).runOn _).2.top.face? q = _
      have hpack : (package c room (compilePages pages)).runOn w = (_, _) := rfl
      obtain ⟨hkept, hmisses⟩ :=
        Config.keeps_package hc hroom htidy hfile (hspares pages hpages) hpack
      rw [runOn_cleanUp]
      split
      · exact keeps_removeTree hkept hmisses Prod.mk.eta.symm
      · exact hkept

end CanvasFlutter
