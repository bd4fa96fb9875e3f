import CanvasFlutter.Proofs.Export.Confined

namespace CanvasFlutter

/-!
# `CanvasFlutter.Proofs.Export.Failure` — a failed export damages nothing

Until the archive takes its place an export only fills places of its own, and taking the place is
the last step and all or nothing. So a failure leaves the archive as it was, and what has been
staged is removed.

## Contents
- **Endings.** `FileAction.Ends`: what an action alters before its last step.
- **Packaging.** `ends_fill`: an archive takes its place last; `package_error`: a failure alters no
  archive.
- **Causes.** `FileAction.Throws`: packaging does not fail for want of a canvas.
- **Cleaning up.** `exists?_cleanUp`: where no file was, nothing is left.
- **Exports.** `exportRoom_error`.
-/

open Entry Package FileAction

/-! ## Endings -/

namespace FileAction

variable {ε δ α β : Type} {t : Terrain} {may make : List String → Prop} {action : FileAction ε α}

/-- On a terrain, an action alters no more than it may, and then it ends in this way. -/
def Ends (t : Terrain) (may make : List String → Prop)
    (last : Workspace → Except ε α → Workspace → Prop) (action : FileAction ε α) : Prop :=
  ∀ w r w', w.terrain = t → w.top.Tidy → action.runOn w = (r, w') →
    ∃ between, w.Alters may make between ∧ last between r w'

theorem Does.bind_ends {post : α → Prop} {next : α → FileAction ε β}
    {last : Workspace → Except ε β → Workspace → Prop} (h : Does t may make action post)
    (herror : ∀ w e, last w (.error e) w) (hnext : ∀ a, post a → Ends t may make last (next a)) :
    Ends t may make last (action >>= next) := by
  intro w r w' ht htidy hrun
  rcases runOn_bind_cases hrun with ⟨e, hfirst, rfl⟩ | ⟨a, middle, hfirst, hrest⟩
  · exact ⟨w', (h w _ w' ht htidy hfirst).1, herror w' e⟩
  · obtain ⟨halters, hpost⟩ := h w _ middle ht htidy hfirst
    obtain ⟨between, hafter, hlast⟩ := hnext a (hpost a rfl) middle r w' (halters.terrain.trans ht)
      (halters.tidy htidy) hrest
    exact ⟨between, halters.trans hafter, hlast⟩

/-- Every error of an action is one of these. -/
def Throws (p : ε → Prop) (action : FileAction ε α) : Prop :=
  ∀ w e w', action.runOn w = (.error e, w') → p e

variable {p : ε → Prop}

theorem throws_pure (a : α) : Throws p (pure a : FileAction ε α) := fun _ _ _ h => by
  cases congrArg Prod.fst h

theorem throws_throw {e : ε} (h : p e) : Throws p (throw e : FileAction ε α) := fun _ _ _ hrun => by
  obtain rfl := Except.error.inj (congrArg Prod.fst hrun)
  exact h

theorem throws_look (f : Workspace → α) : Throws p (look f : FileAction ε α) := fun _ _ _ h => by
  cases congrArg Prod.fst h

theorem throws_attempt (action : FileAction δ α) :
    Throws p (attempt action : FileAction ε (Except δ α)) := fun _ _ _ h => by
  cases congrArg Prod.fst h

theorem throws_mapError {f : δ → ε} (h : ∀ e, p (f e)) (action : FileAction δ α) :
    Throws p (action.mapError f) := by
  intro w e w' hrun
  obtain ⟨first, -, hresult⟩ := runOn_mapError_cases hrun
  cases first with
  | ok a => cases hresult
  | error d => exact Except.error.inj hresult ▸ h d

theorem Throws.bind {next : α → FileAction ε β} (h : Throws p action)
    (hnext : ∀ a, Throws p (next a)) : Throws p (action >>= next) := by
  intro w e w' hrun
  rcases runOn_bind_cases hrun with ⟨d, hfirst, hresult⟩ | ⟨a, between, -, hrest⟩
  · exact Except.error.inj hresult ▸ h w d w' hfirst
  · exact hnext a between e w' hrest

theorem throws_mapM {f : β → FileAction ε α} (items : List β) (h : ∀ item, Throws p (f item)) :
    Throws p (items.mapM f) := by
  induction items with
  | nil => exact throws_pure _
  | cons item rest ih =>
      rw [List.mapM_cons]
      exact (h item).bind fun _ => ih.bind fun _ => throws_pure _

theorem throws_forM {f : β → FileAction ε Unit} (items : List β) (h : ∀ item, Throws p (f item)) :
    Throws p (items.forM f) := by
  induction items with
  | nil => exact throws_pure _
  | cons item rest ih => exact (h item).bind fun _ => ih

end FileAction

/-! ## Packaging -/

namespace Package

theorem package_eq (c : Config) (room : String) (pages : List GeneratedPage) :
    package c room pages = (do
      checkTemplate c.templateFolder
      clearStaging (c.stagingFolder room)
      fillStaging c.templateFolder (c.stagingFolder room)
      writePages (c.stagingFolder room) pages
      patchRoutesFile (c.stagingFolder room) (pages.map GeneratedPage.route)
      writeArchive (c.stagingFolder room) (c.archivePath room) (c.exportName room) c.level) := by
  unfold package
  simp only [stageTemplate_eq, bind_assoc]

variable {staging : String} {w w' : Workspace}

theorem checkTemplate_cases {template : String} {r : Except ExportError Unit}
    (h : (checkTemplate template).runOn w = (r, w')) :
    w' = w ∧ (r = .ok () → w.isFolder template = true) := by
  unfold checkTemplate at h
  rw [runOn_bind, runOn_look] at h
  simp only at h
  split at h
  · next hfolder =>
      obtain ⟨rfl, rfl⟩ := Prod.mk.inj h
      exact ⟨rfl, fun _ => hfolder⟩
  · obtain ⟨rfl, rfl⟩ := Prod.mk.inj h
    exact ⟨rfl, by simp⟩

/-- Clearing the staging folder does nothing or removes a tree. -/
theorem clearStaging_cases {r : Except ExportError Unit}
    (h : (clearStaging staging).runOn w = (r, w')) :
    (w' = w ∧ r = .ok () ∧ w.exists? staging = false)
      ∨ ∃ removed, (removeTree staging).runOn w = (removed, w')
        ∧ r = removed.mapError (.file staging) := by
  unfold clearStaging at h
  rw [runOn_bind, runOn_look] at h
  simp only at h
  split at h
  · unfold onPath at h
    rw [runOn_mapError] at h
    obtain ⟨rfl, rfl⟩ := Prod.mk.inj h
    exact .inr ⟨_, rfl, rfl⟩
  · next hnone =>
      obtain ⟨rfl, rfl⟩ := Prod.mk.inj h
      exact .inl ⟨rfl, rfl, by simpa using hnone⟩

end Package

/-- **Once the staging folder is clear**, packing writes, and the archive takes its place last. -/
theorem Config.Housed.ends_fill {c : Config} {t : Terrain} {room : String}
    (h : c.Housed t room) (pages : List Page) :
    Ends t (c.Writes t room) (c.Opens t room) (c.Finishes room) (do
      fillStaging c.templateFolder (c.stagingFolder room)
      writePages (c.stagingFolder room) (compilePages pages)
      patchRoutesFile (c.stagingFolder room) ((compilePages pages).map GeneratedPage.route)
      writeArchive (c.stagingFolder room) (c.archivePath room) (c.exportName room) c.level) := by
  have herror : ∀ w e, c.Finishes room w (.error e) w := fun w e => .inl ⟨.inl rfl, e, rfl⟩
  have hwrites : ∀ {action : ExportAction Unit},
      Does t (c.Fills t room) (c.Opens t room) action (fun _ => True) →
      Does t (c.Writes t room) (c.Opens t room) action fun _ => True :=
    fun hdoes => hdoes.mono (fun _ => .inl) (fun _ => .inr) fun _ => id
  refine (hwrites (h.does_fillStaging _)).bind_ends herror fun _ _ => ?_
  refine (hwrites (h.does_writePages pages)).bind_ends herror fun _ _ => ?_
  refine (hwrites (h.does_patchRoutesFile _)).bind_ends herror fun _ _ w r w' ht htidy hrun => ?_
  exact h.writeArchive_cases ht htidy hrun

namespace Config.Grounded

variable {c : Config} {t : Terrain} {room : String} (h : c.Grounded t room)
include h

/-- A failure of packaging removes the staging folder, or not even that, and then alters nothing
but what is filled on the way to an archive. -/
theorem package_error {pages : List Page} {w w' : Workspace} {e : ExportError}
    (ht : w.terrain = t) (htidy : w.top.Tidy)
    (hrun : (package c room (compilePages pages)).runOn w = (.error e, w')) :
    ∃ cleared, (cleared = w ∨ ∃ removed, (removeTree (c.stagingFolder room)).runOn w
        = (removed, cleared)) ∧ cleared.Alters (c.Fills t room) (c.Opens t room) w' := by
  rw [package_eq] at hrun
  rcases runOn_bind_cases hrun with ⟨d, hcheck, -⟩ | ⟨_, checked, hcheck, hafter⟩
  · exact ⟨w, .inl rfl, (checkTemplate_cases hcheck).1 ▸ .refl _ _ _⟩
  · obtain ⟨rfl, -⟩ := checkTemplate_cases hcheck
    have hclears : ∀ {second cleared}, (clearStaging (c.stagingFolder room)).runOn checked
        = (second, cleared) → cleared = checked ∨ ∃ removed,
          (removeTree (c.stagingFolder room)).runOn checked = (removed, cleared) := by
      intro second cleared hclear
      rcases clearStaging_cases hclear with ⟨heq, -⟩ | ⟨removed, hremove, -⟩
      · exact .inl heq
      · exact .inr ⟨removed, hremove⟩
    rcases runOn_bind_cases hafter with ⟨d, hclear, -⟩ | ⟨_, cleared, hclear, hfilled⟩
    · exact ⟨w', hclears hclear, .refl _ _ _⟩
    · obtain ⟨hdone, -⟩ := h.does_clearStaging checked _ cleared ht htidy hclear
      have hterrain := hdone.terrain.trans ht
      obtain ⟨written, hwrites, hend⟩ :=
        h.ends_fill pages cleared _ w' hterrain (hdone.tidy htidy) hfilled
      obtain ⟨between, hfill, hlast⟩ := h.exists_delivers hterrain (hdone.tidy htidy) hwrites hend
      have hsame : w' = between := by
        rcases hlast with ⟨hsame, -⟩ | ⟨⟨moved, hrename, hresult⟩, place, name, content, hfile⟩
        · exact hsame
        · obtain ⟨-, -, -, ⟨d, hsame, -⟩ | ⟨rfl, -⟩⟩ :=
            h.rename_cases (hfill.terrain.trans hterrain) hfile hrename
          · exact hsame
          · cases hresult
      exact ⟨cleared, hclears hclear, hsame ▸ hfill⟩

end Config.Grounded

/-! ## Causes -/

/-- Whether a failure came after the canvas had been read and compiled. -/
def ExportError.InPackaging : ExportError → Prop
  | .noCanvas _ | .malformedCanvas _ => False
  | _ => True

namespace Package

variable {α : Type} {visit : Visit α}

theorem throws_onPath (path : String) (action : FileAction FileFault α) :
    Throws ExportError.InPackaging (onPath path action) := throws_mapError (fun _ => trivial) action

theorem throws_visitFolder
    (hvisit : ∀ path names kind, Throws ExportError.InPackaging (visit path names kind))
    (fuel : Nat) (path : String) (names : List String) (listing : List (String × EntryKind)) :
    Throws ExportError.InPackaging (visitFolder visit fuel path names listing) := by
  induction fuel generalizing path names listing with
  | zero => exact throws_throw trivial
  | succ fuel ih =>
      rw [visitFolder]
      refine Throws.bind (throws_mapM _ fun item => ?_) fun _ => throws_pure _
      obtain ⟨name, kind⟩ := item
      cases kind with
      | link => exact throws_pure _
      | file => exact (hvisit _ _ _).bind fun _ => throws_pure _
      | folder =>
          refine (throws_attempt _).bind fun inside => (hvisit _ _ _).bind fun result => ?_
          cases inside with
          | ok inside => exact (ih _ _ _).bind fun _ => throws_pure _
          | error fault => exact throws_throw trivial

theorem throws_visitTree
    (hvisit : ∀ path names kind, Throws ExportError.InPackaging (visit path names kind))
    (path : String) : Throws ExportError.InPackaging (visitTree visit path) := by
  refine (throws_attempt _).bind fun listing => ?_
  cases listing with
  | ok listing => exact throws_visitFolder hvisit _ _ _ _
  | error fault =>
      refine (throws_look _).bind fun found => ?_
      cases found with
      | true => exact throws_pure _
      | false => exact throws_throw trivial

theorem throws_openParent (path : String) :
    Throws ExportError.InPackaging (openParent path) := by
  unfold openParent
  split
  · exact throws_onPath _ _
  · exact throws_pure _

theorem throws_fillStaging (template staging : String) :
    Throws ExportError.InPackaging (fillStaging template staging) := by
  refine (throws_onPath _ _).bind fun _ => ?_
  refine (throws_visitTree (fun path names kind => ?_) _).bind fun _ => throws_pure _
  cases kind <;> exact throws_onPath _ _

theorem throws_patchRoutesFile (staging : String) (routes : List Route) :
    Throws ExportError.InPackaging (patchRoutesFile staging routes) := by
  have hcause : ∀ path (f : FileFault), ExportError.InPackaging
      (if f = .notFound then .routeTableNotFound else .file path f) := by
    intro path f
    split <;> trivial
  refine (throws_mapError (hcause _) _).bind fun existing => ?_
  dsimp only
  split
  · exact throws_onPath _ _
  · next error herror =>
      unfold patchRoutes at herror
      split at herror
      · simp at herror
      · obtain rfl := Except.error.inj herror
        exact throws_throw trivial

theorem throws_writeArchive (staging archive folder : String) (level : Int) :
    Throws ExportError.InPackaging (writeArchive staging archive folder level) := by
  have hentry : ∀ path names kind, Throws ExportError.InPackaging
      (archiveEntry folder (partialPath archive) level path names kind) := by
    intro path names kind
    unfold archiveEntry
    dsimp only
    split
    · exact throws_pure _
    · split
      · exact (throws_onPath _ _).bind fun _ => throws_pure _
      · exact throws_throw trivial
  have hcompress : Throws ExportError.InPackaging
      (compress staging (partialPath archive) folder level) :=
    (throws_onPath _ _).bind fun _ => (throws_visitTree hentry _).bind fun _ => throws_onPath _ _
  -- The error of an archive that is not completed is thrown again, so each stage is looked at.
  intro w e w' hrun
  rcases writeArchive_stages hrun with ⟨d, hopen, hresult⟩ | ⟨opened, compressed, -,
    ⟨d, hfailed, hresult, -⟩ | ⟨-, moved, -, hresult⟩⟩
  · exact Except.error.inj hresult ▸ throws_openParent _ w d w' hopen
  · exact Except.error.inj hresult ▸ hcompress opened d compressed hfailed
  · cases moved with
    | ok _ => cases hresult
    | error fault => exact Except.error.inj hresult ▸ trivial

/-- Packaging does not fail for want of a canvas. -/
theorem throws_package (c : Config) (room : String) (pages : List GeneratedPage) :
    Throws ExportError.InPackaging (package c room pages) := by
  have hcheck : Throws ExportError.InPackaging (checkTemplate c.templateFolder) := by
    refine (throws_look _).bind fun found => ?_
    cases found with
    | true => exact throws_pure _
    | false => exact throws_throw trivial
  have hclear : Throws ExportError.InPackaging (clearStaging (c.stagingFolder room)) := by
    refine (throws_look _).bind fun found => ?_
    cases found with
    | true => exact throws_onPath _ _
    | false => exact throws_pure _
  have hwrite : Throws ExportError.InPackaging (writePages (c.stagingFolder room) pages) := by
    unfold writePages
    refine throws_forM pages fun page => ?_
    rw [writePage_eq]
    exact (throws_openParent _).bind fun _ => throws_onPath _ _
  rw [package_eq]
  exact hcheck.bind fun _ => hclear.bind fun _ => (throws_fillStaging _ _).bind fun _ =>
    hwrite.bind fun _ => (throws_patchRoutesFile _ _).bind fun _ => throws_writeArchive _ _ _ _

end Package

/-! ## Cleaning up -/

theorem Config.not_fills_staging {c : Config} {t : Terrain} {room : String} {q : List String}
    (hq : c.InScratch t [c.exportName room] q) : ¬ c.Fills t room q := by
  rintro (⟨n, more, hin⟩ | hin)
  · simpa using hq.names_inj hin
  · have hname := (List.cons.inj (hin.names_inj hq)).1
    have hlength : ".zip.partial".length ≠ "".length := by decide
    exact append_ne_append (c.exportName room) hlength (hname.trans (by simp))

namespace Config.Grounded

variable {c : Config} {t : Terrain} {room : String} (h : c.Grounded t room)
include h

/-- Whatever the staging path leads to is at the place of the staging folder. -/
theorem place_of_staging {w : Workspace} (ht : w.terrain = t) {follow : Bool} {place : List String}
    {entry : Entry} (hentry : w.resolve follow (c.stagingFolder room) = .ok (.taken place entry)) :
    c.InScratch t [c.exportName room] place ∧ w.top.get? place = some entry := by
  have haim := Workspace.aim_of_resolve hentry
  rw [ht] at haim
  exact ⟨inScratch_of_aim h.aim_stagingFolder haim,
    Workspace.holds_of_walk (Workspace.walk_of_resolve hentry)⟩

/-- If a staging folder has been emptied and its path leads there no longer, it leads nowhere. -/
theorem exists?_emptied {w : Workspace} {folder : List String} (ht : w.terrain = t)
    (hfolder : t.aim true c.scratchFolder = some folder)
    (hthere : w.top.face? (folder ++ [c.exportName room]) = some .folder)
    (hnot : ∀ kids, w.resolve false (c.stagingFolder room)
      ≠ .ok (.taken (folder ++ [c.exportName room]) (.folder kids))) :
    w.exists? (c.stagingFolder room) = false := by
  rw [← Bool.not_eq_true, Workspace.exists?_eq_true_iff]
  rintro ⟨place, entry, hresolve⟩
  obtain ⟨⟨folder', hfolder', rfl⟩, hentry⟩ := h.place_of_staging ht hresolve
  obtain rfl := Option.some.inj (hfolder.symm.trans hfolder')
  obtain ⟨kids, hkids⟩ := face?_eq_folder_iff.mp hthere
  obtain rfl := Option.some.inj (hentry.symm.trans hkids)
  refine hnot kids (Workspace.resolve_nofollow hresolve fun q hq => ?_)
  rw [ht, h.aim_stagingFolder, hfolder] at hq
  obtain rfl := Option.some.inj hq
  have hplain := h.plain folder hfolder (c.exportName room) []
  rwa [← ht] at hplain

/-- A staging folder that its path leads to is erased when it is removed, or it is emptied and its
path leads nowhere. -/
theorem removeStaging_cases {w w' : Workspace} {r : Except FileFault Unit} (ht : w.terrain = t)
    (htidy : w.top.Tidy)
    (hfree : ∀ q content, c.InScratch t [c.exportName room] q → w.top.face? q ≠ some (.file content))
    (hfound : w.exists? (c.stagingFolder room) = true)
    (hrun : (removeTree (c.stagingFolder room)).runOn w = (r, w')) :
    ∃ folder, t.aim true c.scratchFolder = some folder
      ∧ (w' = { w with top := Entry.erase folder (c.exportName room) w.top }
        ∨ w' = { w with top := changeFolder (fun _ => []) (folder ++ [c.exportName room]) w.top }
          ∧ w'.exists? (c.stagingFolder room) = false) := by
  obtain ⟨place, entry, hresolve⟩ := Workspace.exists?_eq_true_iff.mp hfound
  obtain ⟨⟨folder, hfolder, rfl⟩, hentry⟩ := h.place_of_staging ht hresolve
  have hlink : w.link? (folder ++ [c.exportName room]) = none := by
    have := h.plain folder hfolder (c.exportName room) []
    rwa [← ht] at this
  obtain ⟨children, rfl⟩ : ∃ children, entry = .folder children := by
    cases entry with
    | folder children => exact ⟨children, rfl⟩
    | file content =>
        exact absurd (face?_eq_file_iff.mpr hentry) (hfree _ content ⟨folder, hfolder, rfl⟩)
    | link target =>
        have hsome := Workspace.link?_eq_some_iff.mpr (face?_eq_link_iff.mpr hentry)
        rw [hlink] at hsome
        cases hsome
  have hnofollow := Workspace.resolve_nofollow hresolve fun q hq => by
    rw [ht, h.aim_stagingFolder, hfolder] at hq
    exact Option.some.inj hq ▸ hlink
  have hterrain := (h.does_removeStaging w r w' ht htidy hrun).1.terrain.trans ht
  refine ⟨folder, hfolder, ?_⟩
  rcases removeTree_folder_cases hnofollow (lastName_join _ h.staging ▸ h.staging.ne_dot)
    (lastName_join _ h.staging ▸ h.staging.ne_dots) (Path.dropSlashes_join _ h.staging) hrun with
    herased | ⟨rfl, hnot⟩
  · exact .inl herased
  · refine .inr ⟨rfl, h.exists?_emptied hterrain hfolder ?_ hnot⟩
    rw [face?_clear, if_neg (by simp)]
    exact face?_eq_folder_iff.mpr ⟨children, hentry⟩

/-- Cleaning up does nothing, or erases the staging folder with all in it, or empties it, and then
its path leads nowhere. -/
theorem cleanUp_cases {w w' : Workspace} {r : Except ExportError Unit} (ht : w.terrain = t)
    (htidy : w.top.Tidy)
    (hfree : ∀ q content, c.InScratch t [c.exportName room] q → w.top.face? q ≠ some (.file content))
    (hrun : (cleanUp (c.stagingFolder room)).runOn w = (r, w')) :
    (w' = w ∧ w.exists? (c.stagingFolder room) = false)
      ∨ ∃ folder, t.aim true c.scratchFolder = some folder
        ∧ (w' = { w with top := Entry.erase folder (c.exportName room) w.top }
          ∨ w' = { w with top := changeFolder (fun _ => []) (folder ++ [c.exportName room]) w.top }
            ∧ w'.exists? (c.stagingFolder room) = false) := by
  unfold cleanUp at hrun
  rw [runOn_bind, runOn_look] at hrun
  simp only at hrun
  split at hrun
  · next hfound =>
      rw [runOn_bind, runOn_attempt] at hrun
      exact .inr (h.removeStaging_cases ht htidy hfree hfound
        (Prod.ext rfl (Prod.mk.inj hrun).2))
  · next hmissing =>
      obtain ⟨-, rfl⟩ := Prod.mk.inj hrun
      exact .inl ⟨rfl, by simpa using hmissing⟩

/-- **Where no file was nothing is left** of the staging folder after cleaning up. -/
theorem exists?_cleanUp {w w' : Workspace} {r : Except ExportError Unit} (ht : w.terrain = t)
    (htidy : w.top.Tidy)
    (hfree : ∀ q content, c.InScratch t [c.exportName room] q → w.top.face? q ≠ some (.file content))
    (hrun : (cleanUp (c.stagingFolder room)).runOn w = (r, w')) :
    w'.exists? (c.stagingFolder room) = false := by
  have hterrain := (h.does_cleanUp w r w' ht htidy hrun).1.terrain
  obtain ⟨rfl, hmissing⟩ | ⟨folder, hfolder, rfl | ⟨-, hgone⟩⟩ :=
    h.cleanUp_cases ht htidy hfree hrun
  · exact hmissing
  · rw [← Bool.not_eq_true, Workspace.exists?_eq_true_iff]
    rintro ⟨place, entry, hagain⟩
    obtain ⟨⟨folder', hfolder', rfl⟩, hentry⟩ := h.place_of_staging (hterrain.trans ht) hagain
    obtain rfl := Option.some.inj (hfolder.symm.trans hfolder')
    have hgone : (Entry.erase folder (c.exportName room) w.top).face?
        (folder ++ [c.exportName room]) = none := by
      rw [face?_erase, if_pos (List.prefix_refl _)]
    rw [face?_eq_none_iff, hentry] at hgone
    cases hgone
  · exact hgone

/-- When packaging fails, then where no file was there is still none in the place of the staging
folder. -/
theorem free_of_package_error {pages : List Page} {w w' : Workspace} {e : ExportError}
    (ht : w.terrain = t) (htidy : w.top.Tidy)
    (hfree : ∀ q content, c.InScratch t [c.exportName room] q → w.top.face? q ≠ some (.file content))
    (hrun : (package c room (compilePages pages)).runOn w = (.error e, w')) :
    ∀ q content, c.InScratch t [c.exportName room] q → w'.top.face? q ≠ some (.file content) := by
  intro q content hq
  obtain ⟨cleared, hcleared, hfill⟩ := h.package_error ht htidy hrun
  have hnone : cleared.top.face? q ≠ some (.file content) := by
    rcases hcleared with rfl | ⟨removed, hremove⟩
    · exact hfree q content hq
    · rcases face?_removeTree hremove q with hsame | hgone
      · exact hsame ▸ hfree q content hq
      · simp [hgone]
  rcases hfill.face q (not_fills_staging hq) with hsame | ⟨-, -, hfolder⟩
  · exact hsame ▸ hnone
  · simp [hfolder]

theorem stages_of_package_error {pages : List Page} {w w' : Workspace} {e : ExportError}
    (ht : w.terrain = t) (htidy : w.top.Tidy)
    (hrun : (package c room (compilePages pages)).runOn w = (.error e, w')) :
    w.Alters (c.Stages t room) (t.LeadsThrough c.scratchFolder) w' := by
  obtain ⟨cleared, hcleared, hfill⟩ := h.package_error ht htidy hrun
  have hrest := hfill.mono (fun _ => Config.stages_of_fills) (fun _ => Config.stages_of_opens)
  rcases hcleared with rfl | ⟨removed, hremove⟩
  · exact hrest
  · exact (h.does_removeStaging w _ _ ht htidy hremove).1.trans hrest

end Config.Grounded

/-! ## Exports -/

variable {c : Config} {store : Store} {room : String} {w w' : Workspace} {e : ExportError}

theorem cleanUp_eq_ok (staging : String) (w : Workspace) :
    ((cleanUp staging).runOn w).1 = .ok () := by
  unfold cleanUp
  rw [runOn_bind, runOn_look]
  simp only
  split <;> rfl

namespace Package

/-- What an export comes to from what packing comes to. -/
def conclude (c : Config) (room : String) (pages : List GeneratedPage)
    (packed : Except ExportError Unit × Workspace) : Except ExportError ExportReport × Workspace :=
  (packed.1.map fun _ => ⟨room, c.archivePath room, pages.map GeneratedPage.route⟩,
    ((cleanUp (c.stagingFolder room)).runOn packed.2).2)

/-- Packing what a page list makes of a room, and cleaning up. -/
def runOnPages (c : Config) (room : String) (pages : List Page) (w : Workspace) :
    Except ExportError ExportReport × Workspace :=
  conclude c room (compilePages pages) ((package c room (compilePages pages)).runOn w)

/-- An export fails at its canvas, or it is about the pages of that. -/
theorem runOn_exportRoom (hstore : store.IsLookup) (w : Workspace) :
    (exportRoom c store room).runOn w = match ((store.pages room).runOn w).1 with
      | .ok pages => runOnPages c room pages w
      | .error e => (.error e, w) := by
  have hreads := store.reads_pages hstore room w
  unfold exportRoom
  rw [runOn_bind]
  cases hpages : (store.pages room).runOn w with
  | mk first between =>
      rw [hpages] at hreads
      obtain rfl : between = w := hreads
      cases first with
      | error e => rfl
      | ok pages =>
          unfold runOnPages conclude
          dsimp only
          rw [runOn_bind, runOn_attempt]
          cases hpack : (package c room (compilePages pages)).runOn between with
          | mk second packed =>
              have hok := cleanUp_eq_ok (c.stagingFolder room) packed
              dsimp only
              rw [runOn_bind]
              cases hclean : (cleanUp (c.stagingFolder room)).runOn packed with
              | mk third cleaned =>
                  rw [hclean] at hok
                  obtain rfl : third = .ok () := hok
                  cases second <;> rfl

end Package

/-- An export fails at its canvas, or it packs the pages of that and cleans up. -/
theorem exportRoom_cases (hstore : store.IsLookup) {r : Except ExportError ExportReport}
    (hrun : (exportRoom c store room).runOn w = (r, w')) :
    (∃ cause, ((store.pages room).runOn w).1 = .error cause ∧ r = .error cause ∧ w' = w)
      ∨ ∃ pages result packed, ((store.pages room).runOn w).1 = .ok pages
        ∧ (package c room (compilePages pages)).runOn w = (result, packed)
        ∧ (cleanUp (c.stagingFolder room)).runOn packed = (.ok (), w')
        ∧ r = result.map fun _ =>
          ⟨room, c.archivePath room, (compilePages pages).map GeneratedPage.route⟩ := by
  rw [runOn_exportRoom hstore] at hrun
  cases hpages : ((store.pages room).runOn w).1 with
  | error cause =>
      rw [hpages] at hrun
      obtain ⟨rfl, rfl⟩ := Prod.mk.inj hrun
      exact .inl ⟨cause, rfl, rfl, rfl⟩
  | ok pages =>
      rw [hpages] at hrun
      dsimp only at hrun
      cases hpack : (package c room (compilePages pages)).runOn w with
      | mk result packed =>
          rw [runOnPages, hpack] at hrun
          obtain ⟨hresult, hclean⟩ := Prod.mk.inj hrun
          exact .inr ⟨pages, result, packed, rfl, hpack,
            Prod.ext (cleanUp_eq_ok _ packed) hclean, hresult.symm⟩

/-- An export fails before anything is written, or in packaging, and then it is cleaned up. -/
theorem exportRoom_error_cases (hstore : store.IsLookup)
    (hrun : (exportRoom c store room).runOn w = (.error e, w')) :
    (w' = w ∧ ((store.pages room).runOn w).1 = .error e)
      ∨ ∃ pages packed, ((store.pages room).runOn w).1 = .ok pages
        ∧ (package c room (compilePages pages)).runOn w = (.error e, packed)
        ∧ (cleanUp (c.stagingFolder room)).runOn packed = (.ok (), w') := by
  obtain ⟨cause, hpages, heq, rfl⟩ | ⟨pages, result, packed, hpages, hpack, hclean, heq⟩ :=
    exportRoom_cases hstore hrun
  · exact .inl ⟨rfl, Except.error.inj heq ▸ hpages⟩
  · cases result with
    | ok _ => cases heq
    | error d =>
        obtain rfl := Except.error.inj heq
        exact .inr ⟨pages, packed, hpages, hpack, hclean⟩

/-- An export that succeeds packs and cleans up. -/
theorem exportRoom_ok_cases (hstore : store.IsLookup) {report : ExportReport}
    (hrun : (exportRoom c store room).runOn w = (.ok report, w')) :
    ∃ pages packed, ((store.pages room).runOn w).1 = .ok pages
      ∧ (package c room (compilePages pages)).runOn w = (.ok (), packed)
      ∧ (cleanUp (c.stagingFolder room)).runOn packed = (.ok (), w') := by
  obtain ⟨cause, -, heq, -⟩ | ⟨pages, result, packed, hpages, hpack, hclean, heq⟩ :=
    exportRoom_cases hstore hrun
  · cases heq
  · cases result with
    | error d => cases heq
    | ok _ => exact ⟨pages, packed, hpages, hpack, hclean⟩

theorem Store.pages_error {cause : ExportError} (h : ((store room).runOn w).1 = .error cause) :
    ((store.pages room).runOn w).1 = .error cause := by
  unfold Store.pages
  rw [runOn_bind]
  cases hfirst : (store room).runOn w with
  | mk first between =>
      rw [hfirst] at h
      obtain rfl : first = .error cause := h
      rfl

/-- **A failed export damages nothing.** Only the staging folder and the unfinished archive may be
altered, and missing folders on the way to the scratch folder be made, so an archive that was there
is there as it was. If the store failed, or there is no canvas or it is malformed, nothing has
changed at all. And if the canvas could be loaded and no file stood in the place of the staging
folder, then its path leads to nothing afterwards. -/
theorem exportRoom_error (hc : c.fault? = none) (hroom : IsRoomText room) (hstore : store.IsLookup)
    (htidy : w.top.Tidy) (hplain : w.terrain.IsPlain c.scratchFolder)
    (hrun : (exportRoom c store room).runOn w = (.error e, w')) :
    w.Alters (c.Stages w.terrain room) (w.terrain.LeadsThrough c.scratchFolder) w'
      ∧ (∀ q archive, c.InScratch w.terrain [c.exportName room ++ ".zip"] q →
          w.top.face? q = some (.file archive) → w'.top.face? q = some (.file archive))
      ∧ ((∃ cause, ((store room).runOn w).1 = .error cause) ∨ (∃ r, e = .noCanvas r)
          ∨ (∃ fault, e = .malformedCanvas fault) → w' = w)
      ∧ ((∃ pages, ((store.pages room).runOn w).1 = .ok pages) →
          (∀ q content, c.InScratch w.terrain [c.exportName room] q →
            w.top.face? q ≠ some (.file content)) →
          w'.exists? (c.stagingFolder room) = false) := by
  have hgrounded := Config.grounded hc hroom hplain
  rcases exportRoom_error_cases hstore hrun with ⟨rfl, hpages⟩ | ⟨pages, packed, hpages, hpack, hclean⟩
  · exact ⟨.refl _ _ _, fun _ _ _ => id, fun _ => rfl, fun ⟨pages, hok⟩ => by simp [hpages] at hok⟩
  · have hpacked := hgrounded.stages_of_package_error rfl htidy hpack
    have hcleaned := (hgrounded.does_cleanUp packed _ w' hpacked.terrain (hpacked.tidy htidy) hclean).1
    have hall := hpacked.trans hcleaned
    have hcause := throws_package c room (compilePages pages) w e packed hpack
    refine ⟨hall, fun q archive hq hfile => ?_, ?_, fun _ hfree => ?_⟩
    · rcases hall.face q (Config.not_stages_archive hq) with hsame | ⟨-, hnone, -⟩
      · exact hsame.trans hfile
      · rw [hnone] at hfile
        cases hfile
    · rintro (⟨cause, herror⟩ | ⟨r, rfl⟩ | ⟨fault, rfl⟩)
      · rw [Store.pages_error herror] at hpages
        cases hpages
      · exact hcause.elim
      · exact hcause.elim
    · exact hgrounded.exists?_cleanUp hpacked.terrain (hpacked.tidy htidy)
        (hgrounded.free_of_package_error rfl htidy hfree hpack) hclean

/-- A canvas, and a staging folder that was left behind. -/
def staleStaging : Workspace where
  top := .folder [
    ("canvases", .folder [("abc.json", .file "[]".toUTF8)]),
    ("tmp-export", .folder [("flutter-abc", .folder [])])]
  here := []

theorem exportRoom_error_staleStaging :
    ({} : Config).fault? = none ∧ IsRoomText "abc" ∧ (Store.ofList [("abc", "[]")]).IsLookup
      ∧ staleStaging.top.Tidy ∧ staleStaging.terrain.IsPlain ({} : Config).scratchFolder
      ∧ ∃ w', (exportRoom {} (Store.ofList [("abc", "[]")]) "abc").runOn staleStaging
          = (.error (.file "templates/flutter" .templateMissing), w')
        ∧ staleStaging.Alters (({} : Config).Stages staleStaging.terrain "abc")
            (staleStaging.terrain.LeadsThrough ({} : Config).scratchFolder) w'
        ∧ w'.exists? (({} : Config).stagingFolder "abc") = false := by
  have hconfig : ({} : Config).fault? = none := by decide +kernel
  have hroom : IsRoomText "abc" := by decide
  have hstore := Store.isLookup_ofList [("abc", "[]")]
  have htidy : staleStaging.top.Tidy := tidy_of_isTidy _ (by decide +kernel)
  have haim : staleStaging.terrain.aim true ({} : Config).scratchFolder = some ["tmp-export"] :=
    Terrain.aim_name (by decide) (by decide)
  have hplain : staleStaging.terrain.IsPlain ({} : Config).scratchFolder := by
    refine Terrain.isPlain_of_isLinkless haim fun entry hentry => ?_
    obtain rfl : Entry.folder [("flutter-abc", .folder [])] = entry := Option.some.inj hentry
    rfl
  have hrun : ((exportRoom {} (Store.ofList [("abc", "[]")]) "abc").runOn staleStaging).1
      = .error (.file "templates/flutter" .templateMissing) := by
    delta exportRoom package stageTemplate cleanUp removeTree removeFolder FileAction.resolve
      Workspace.isFolder Workspace.exists? Workspace.entry? Workspace.resolve
    rw [Workspace.walk_eq_walkBy]
    decide +kernel
  have hpages : (((Store.ofList [("abc", "[]")]).pages "abc").runOn staleStaging).1 = .ok [] := rfl
  have hfree : ∀ q content, ({} : Config).InScratch staleStaging.terrain
      [({} : Config).exportName "abc"] q → staleStaging.top.face? q ≠ some (.file content) := by
    rintro q content ⟨place, hplace, rfl⟩
    obtain rfl := Option.some.inj (haim.symm.trans hplace)
    have hface : staleStaging.top.face? ["tmp-export", "flutter-abc"] = some .folder := by
      decide +kernel
    exact fun hfile => by cases hface.symm.trans hfile
  obtain ⟨halters, -, -, hgone⟩ :=
    exportRoom_error hconfig hroom hstore htidy hplain (Prod.ext hrun rfl)
  exact ⟨hconfig, hroom, hstore, htidy, hplain, _, Prod.ext hrun rfl, halters,
    hgone ⟨[], hpages⟩ hfree⟩

/-- Without a canvas nothing is touched, a staging folder that was left behind neither. -/
theorem exportRoom_noCanvas_keepsStaging :
    staleStaging.isFolder (({} : Config).stagingFolder "abc") = true
      ∧ (exportRoom {} (Store.ofList []) "abc").runOn staleStaging
          = (.error (.noCanvas "abc"), staleStaging)
      ∧ staleStaging.exists? (({} : Config).stagingFolder "abc") = true := by
  refine ⟨?_, rfl, ?_⟩
  · delta Workspace.isFolder Workspace.entry? Workspace.resolve
    rw [Workspace.walk_eq_walkBy]
    decide +kernel
  · delta Workspace.exists? Workspace.entry? Workspace.resolve
    rw [Workspace.walk_eq_walkBy]
    decide +kernel

end CanvasFlutter
