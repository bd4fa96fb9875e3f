import CanvasFlutter.Proofs.Export.Failure
import CanvasFlutter.Proofs.Export.Walk
import CanvasFlutter.Proofs.Workspace.Overlay

namespace CanvasFlutter

/-!
# `CanvasFlutter.Proofs.Export.Staging` — what is staged

Once the staging folder has been cleared and made it is empty, and the way to it is there for good.
Then the template is copied, pages are written and the routes are patched, each of them a setting
below the staging folder. So what is staged is the template overlaid with the files of this run.

## Contents
- **Ways.** `Config.IsDirect`: making the scratch folder makes nothing else.
- **Readiness.** `Config.Ready`; `ready_of_make`.
- **Copying.** `setsAll_of_copy`.
- **Writing.** `setsAll_of_writePages`, `sets_of_patchRoutesFile`.
-/

open Entry Package FileAction

/-! ## Ways -/

namespace Config

variable {c : Config} {t : Terrain} {room : String} {S names q : List String} {w w' : Workspace}

/-- On the way to the scratch folder nothing is missing but that folder, the staging folder and what
holds them, and nothing is what an export fills. So it is for every path that does not go up
again. -/
def IsDirect (c : Config) (room : String) (w : Workspace) : Prop :=
  ∀ S, w.terrain.aim true c.scratchFolder = some S →
    ∀ q, w.terrain.LeadsThrough c.scratchFolder q →
      q <+: S ++ [c.exportName room] ∨ w.top.face? q ≠ none ∧ ¬ c.Fills w.terrain room q

theorem inScratch_iff (hS : t.aim true c.scratchFolder = some S) :
    c.InScratch t names q ↔ q = S ++ names := by
  constructor
  · rintro ⟨place, hplace, rfl⟩
    rw [Option.some.inj (hS.symm.trans hplace)]
  · rintro rfl
    exact ⟨S, hS, rfl⟩

theorem inStaging_iff (hS : t.aim true c.scratchFolder = some S) :
    c.InScratch t (c.exportName room :: names) q ↔ q = S ++ [c.exportName room] ++ names := by
  rw [inScratch_iff hS, List.append_cons]

/-- What is beside the scratch folder holds nothing of it and is not in its staging folder. -/
theorem not_prefix_beside {T : List String} (name : String) (hbeside : ¬ S <+: T ∧ ¬ T <+: S)
    (q : List String) : ¬ T ++ q <+: S ∧ ¬ S ++ [name] <+: T ++ q := by
  refine ⟨fun hpre => hbeside.2 ((List.prefix_append T q).trans hpre), fun hpre => ?_⟩
  have hscratch : S <+: T ++ q := (List.prefix_append S [name]).trans hpre
  rcases List.prefix_or_prefix_of_prefix hscratch (List.prefix_append T q) with hST | hTS
  · exact hbeside.1 hST
  · exact hbeside.2 hTS

/-- What an export fills is not the staging folder and does not hold it. -/
theorem Fills.not_above (hS : t.aim true c.scratchFolder = some S) (h : c.Fills t room q) :
    ¬ q <+: S ++ [c.exportName room] := by
  intro hpre
  obtain ⟨n, more, hin⟩ | hin := h
  · rw [inStaging_iff hS] at hin
    have hlength := hpre.length_le
    simp [hin] at hlength
  · rw [inScratch_iff hS] at hin
    subst hin
    have hname := hpre.eq_of_length (by simp)
    exact not_fills_staging ((inScratch_iff hS).mpr hname) (.inr ((inScratch_iff hS).mpr rfl))

/-- What is on the way to the scratch folder is not what the export fills. -/
theorem IsDirect.not_fills (h : c.IsDirect room w) (ht : w.terrain = t)
    (hS : t.aim true c.scratchFolder = some S) (hq : t.LeadsThrough c.scratchFolder q) :
    ¬ c.Fills t room q := by
  subst ht
  rcases h S hS q hq with hpre | ⟨-, hfills⟩
  · exact fun hfills => hfills.not_above hS hpre
  · exact hfills

/-- A path that does not go up again makes nothing but the scratch folder and what holds it. -/
theorem isDirect_of_no_dots (hplain : w.terrain.IsPlain c.scratchFolder)
    (hdots : ".." ∉ Path.steps c.scratchFolder) : c.IsDirect room w := by
  intro S hS q ⟨front, ⟨back, hback⟩, hfront⟩
  have hsplit := hS
  rw [Terrain.aim_eq_steps, ← hback] at hsplit
  obtain ⟨between, fuel, hbetween, hrest⟩ := Terrain.exists_aimFrom hsplit
  obtain rfl := Option.some.inj (hfront.symm.trans hbetween)
  have hmore : ".." ∉ back := fun hmem => hdots (by rw [← hback]; simp [hmem])
  rcases Terrain.prefix_or_link hmore hrest with hpre | ⟨n, more, hlink⟩
  · exact .inl (hpre.trans (List.prefix_append _ _))
  · -- A link further down is in a folder, and none is in the scratch folder.
    refine .inr ⟨?_, fun hfills => hlink ?_⟩
    · obtain ⟨target, htarget⟩ := Option.ne_none_iff_exists'.mp hlink
      have hface := Workspace.link?_eq_some_iff.mp htarget
      rw [face?_of_below (by rw [hface]; simp)]
      simp
    · unfold Fills at hfills
      simp only [inScratch_iff hS] at hfills
      rcases hfills with ⟨m, rest, rfl⟩ | rfl <;>
        rw [List.append_assoc] <;> exact hplain S hS _ _

/-! ## Readiness -/

/-- The staging folder is there, and so is the way to it. -/
structure Ready (c : Config) (t : Terrain) (room : String) (w : Workspace) : Prop where
  terrain : w.terrain = t
  tidy : w.top.Tidy
  way : ∀ q, t.LeadsThrough c.scratchFolder q → w.top.face? q ≠ none ∧ ¬ c.Fills t room q
  staging : ∀ q, c.InScratch t [c.exportName room] q → w.top.face? q = some .folder
  /-- The path of the staging folder does not come by what is in it. -/
  trail : ∀ q, t.ComesBy (c.stagingFolder room) q →
    ∀ n more, ¬ c.InScratch t (c.exportName room :: n :: more) q

/-- What only fills leaves everything else alone once the staging folder is there. -/
theorem Ready.face (hw : c.Ready t room w) (h : w.Alters (c.Fills t room) (c.Opens t room) w')
    (hq : ¬ c.Fills t room q) : w'.top.face? q = w.top.face? q := by
  rcases h.face q hq with hsame | ⟨hway | hstaging, hnone, -⟩
  · exact hsame
  · exact absurd hnone (hw.way q hway).1
  · rw [hw.staging q hstaging] at hnone
    cases hnone

theorem Ready.alters (hw : c.Ready t room w)
    (h : w.Alters (c.Fills t room) (c.Opens t room) w') : c.Ready t room w' where
  terrain := h.terrain.trans hw.terrain
  tidy := h.tidy hw.tidy
  way q hq := by
    obtain ⟨hthere, hfills⟩ := hw.way q hq
    rw [hw.face h hfills]
    exact ⟨hthere, hfills⟩
  staging q hq := by
    rw [hw.face h (not_fills_staging hq)]
    exact hw.staging q hq
  trail := hw.trail

/-- What sets something below a ready staging folder leaves it ready. -/
theorem Ready.sets (hw : c.Ready t room w) (hS : t.aim true c.scratchFolder = some S)
    {face : Face} (hne : names ≠ [])
    (halters : w.Alters (· = S ++ [c.exportName room] ++ names)
      (fun q => c.Opens t room q ∨ ∃ front, front <+: names ∧ front ≠ []
        ∧ q = S ++ [c.exportName room] ++ front) w')
    (hself : w'.top.face? (S ++ [c.exportName room] ++ names) = some face) :
    Sets (S ++ [c.exportName room]) names face w w' ∧ c.Ready t room w' := by
  have hfills : ∀ front, front ≠ [] → c.Fills t room (S ++ [c.exportName room] ++ front) := by
    intro front hfront
    obtain ⟨n, more, rfl⟩ := List.exists_cons_of_ne_nil hfront
    exact .inl ⟨n, more, (inStaging_iff hS).mpr rfl⟩
  refine ⟨⟨⟨halters.terrain, halters.tidy, fun q hq => ?_⟩, hself⟩, hw.alters (halters.mono ?_ ?_)⟩
  · rcases halters.face q hq with hsame | ⟨(hway | hstaging) | hfront, hnone, hfolder⟩
    · exact .inl hsame
    · exact absurd hnone (hw.way q hway).1
    · rw [hw.staging q hstaging] at hnone
      cases hnone
    · exact .inr ⟨hfront, hnone, hfolder⟩
  · rintro q rfl
    exact hfills names hne
  · rintro q (hopens | ⟨front, -, hfront, rfl⟩)
    · exact .inr hopens
    · exact .inl (hfills front hfront)

end Config

namespace Config.Grounded

variable {c : Config} {t : Terrain} {room : String} (h : c.Grounded t room)
variable {S q : List String} {w w₁ w' : Workspace}
include h

theorem aim_staging {follow : Bool} (hS : t.aim true c.scratchFolder = some S) :
    t.aim follow (c.stagingFolder room) = some (S ++ [c.exportName room]) := by
  rw [h.aim_stagingFolder, hS, Option.map_some]

/-- Clearing the staging folder finds nothing, or erases or empties it. -/
theorem clearStaging_ok (ht : w.terrain = t) (hS : t.aim true c.scratchFolder = some S)
    (hrun : (clearStaging (c.stagingFolder room)).runOn w = (.ok (), w')) :
    (w' = w ∧ w.exists? (c.stagingFolder room) = false)
      ∨ w' = { w with top := Entry.erase S (c.exportName room) w.top }
      ∨ w' = { w with top := changeFolder (fun _ => []) (S ++ [c.exportName room]) w.top } := by
  obtain ⟨rfl, -, hmissing⟩ | ⟨removed, hremove, hok⟩ := clearStaging_cases hrun
  · exact .inl ⟨rfl, hmissing⟩
  · refine .inr ?_
    obtain ⟨-, hne⟩ | ⟨place, entry, hresolve, -, heffect⟩ := removeTree_cases hremove
    · cases removed with
      | ok _ => exact absurd rfl hne
      | error fault => cases hok
    · have hin := (h.place_of_staging ht hresolve).1
      rw [inScratch_iff hS] at hin
      subst hin
      rcases heffect with hemptied | ⟨front, name, hplace, herased⟩
      · exact .inr hemptied
      · obtain ⟨rfl, hname⟩ := List.append_inj' hplace rfl
        obtain rfl := List.singleton_inj.mp hname
        exact .inl herased

/-- Making the staging folder makes folders on the way to it and nothing else. -/
theorem does_makeStaging : Does t (fun _ => False) (c.Opens t room)
    (makeFolders (c.stagingFolder room)) fun _ => True :=
  does_makeFolders fun _ hq => .inr (h.leadsThrough_staging hq)

/-- If the staging folder was not found but was there, then making it changes nothing. -/
theorem staging_absent (hdirect : c.IsDirect room w) (ht : w.terrain = t) (htidy : w.top.Tidy)
    (hS : t.aim true c.scratchFolder = some S)
    (hmissing : w.exists? (c.stagingFolder room) = false)
    (hmake : (makeFolders (c.stagingFolder room)).runOn w = (.ok (), w')) :
    w.top.face? (S ++ [c.exportName room]) = none := by
  refine Classical.byContradiction fun hthere => ?_
  have haim : w.terrain.aim true (c.stagingFolder room) = some (S ++ [c.exportName room]) :=
    ht ▸ h.aim_staging hS
  have hmade := (h.does_makeStaging w _ w' ht htidy hmake).1
  have hsame : ∀ q, w'.top.face? q = w.top.face? q := by
    intro q
    rcases hmade.face q id with hsame | ⟨hway | hstaging, hnone, -⟩
    · exact hsame
    · subst ht
      rcases hdirect S hS q hway with hpre | ⟨hne, -⟩
      · exact absurd hnone (face?_ne_none_above hthere hpre)
      · exact absurd hnone hne
    · rw [inScratch_iff hS] at hstaging
      exact absurd hnone (hstaging ▸ hthere)
  have hfound : w'.exists? (c.stagingFolder room) = true := by
    obtain ⟨place, children, hresolve⟩ := Workspace.isFolder_eq_true_iff.mp
      (isFolder_of_makeFolders htidy (Path.join_ne_empty _ h.staging.ne_empty) hmake haim hthere)
    exact Workspace.exists?_eq_true_iff.mpr ⟨place, _, hresolve⟩
  have hback := Workspace.exists?_of_folders hmade.terrain.symm (fun q hq => hsame q ▸ hq) hfound
    (hmade.terrain ▸ haim) hthere
  rw [hmissing] at hback
  cases hback

/-- **The staging folder is ready and empty** when it has been cleared and made, and nothing else
has been made but what holds it. -/
theorem ready_of_makeFolders (hdirect : c.IsDirect room w) (ht : w.terrain = t)
    (htidy : w.top.Tidy) (hS : t.aim true c.scratchFolder = some S)
    (hclear : (clearStaging (c.stagingFolder room)).runOn w = (.ok (), w₁))
    (hmake : (makeFolders (c.stagingFolder room)).runOn w₁ = (.ok (), w')) :
    c.Ready t room w' ∧ (∀ n more, w'.top.face? (S ++ c.exportName room :: n :: more) = none)
      ∧ ∀ q, ¬ q <+: S → ¬ S ++ [c.exportName room] <+: q →
        w'.top.face? q = w.top.face? q := by
  have hcleared := (h.does_clearStaging w _ w₁ ht htidy hclear).1
  have ht₁ : w₁.terrain = t := hcleared.terrain.trans ht
  have htidy₁ := hcleared.tidy htidy
  have hmade := (h.does_makeStaging w₁ _ w' ht₁ htidy₁ hmake).1
  have hfolder : w'.top.face? (S ++ [c.exportName room]) = some .folder :=
    face?_of_makeFolders htidy₁ (Path.join_ne_empty _ h.staging.ne_empty) hmake
      (ht₁ ▸ h.aim_staging hS)
  have hkept : ∀ q, ¬ S ++ [c.exportName room] <+: q → w₁.top.face? q = w.top.face? q := by
    intro q hq
    obtain ⟨rfl, -⟩ | rfl | rfl := h.clearStaging_ok ht hS hclear
    · rfl
    · rw [face?_erase, if_neg hq]
    · rw [face?_clear, if_neg fun h => hq h.1]
  have hempty : ∀ n more, w₁.top.face? (S ++ c.exportName room :: n :: more) = none := by
    intro n more
    obtain ⟨rfl, hmissing⟩ | rfl | rfl := h.clearStaging_ok ht hS hclear
    · have habsent := h.staging_absent hdirect ht htidy hS hmissing hmake
      rw [List.append_cons]
      exact face?_below (by rw [habsent]; simp) n more
    · rw [face?_erase, if_pos (prefix_concat_iff.mpr ⟨_, rfl⟩)]
    · rw [face?_clear, if_pos ⟨prefix_concat_iff.mpr ⟨_, rfl⟩, by simp⟩]
  have hfills := fun q => hdirect.not_fills (q := q) ht hS
  have hbelow : ∀ n more, w'.top.face? (S ++ c.exportName room :: n :: more) = none := by
    intro n more
    rcases hmade.face _ id with hsame | ⟨hway | hstaging, -, -⟩
    · exact hsame.trans (hempty n more)
    · exact absurd (.inl ⟨n, more, S, hS, rfl⟩) (hfills _ hway)
    · rw [inScratch_iff hS] at hstaging
      simp at hstaging
  refine ⟨⟨hmade.terrain.trans ht₁, hmade.tidy htidy₁, fun q hq => ⟨?_, hfills q hq⟩, ?_, ?_⟩,
    hbelow, ?_⟩
  · subst ht
    rcases hdirect S hS q hq with hpre | ⟨hne, hnot⟩
    · exact face?_ne_none_above (by rw [hfolder]; simp) hpre
    · by_cases hstaging : q = S ++ [c.exportName room]
      · rw [hstaging, hfolder]
        simp
      have houtside : ¬ S ++ [c.exportName room] <+: q := by
        rintro ⟨more, rfl⟩
        obtain ⟨n, more, rfl⟩ := List.exists_cons_of_ne_nil (l := more) (by simpa using hstaging)
        exact hnot (.inl ⟨n, more, (inStaging_iff hS).mpr rfl⟩)
      rw [← hkept q houtside] at hne
      rcases hmade.face q id with hsame | ⟨-, hnone, -⟩
      · rwa [hsame]
      · exact absurd hnone hne
  · intro q hq
    rw [inScratch_iff hS] at hq
    exact hq ▸ hfolder
  · -- All that the path comes by is there, and in the staging folder there is nothing yet.
    intro q hq n more hin
    rw [inScratch_iff hS] at hin
    exact face?_of_comesBy_makeFolders htidy₁ (Path.join_ne_empty _ h.staging.ne_empty) hmake
      (ht₁ ▸ hq) (hin ▸ hbelow n more)
  · intro q habove hbelow
    rcases hmade.face q id with hsame | ⟨hway | hstaging, hnone, -⟩
    · exact hsame.trans (hkept q hbelow)
    · subst ht
      rcases hdirect S hS q hway with hpre | ⟨hne, -⟩
      · rcases List.prefix_concat_iff.mp hpre with rfl | hpre
        · exact absurd (List.prefix_refl _) hbelow
        · exact absurd hpre habove
      · exact absurd (hkept q hbelow ▸ hnone) hne
    · rw [inScratch_iff hS] at hstaging
      exact absurd (hstaging ▸ List.prefix_refl _) hbelow

/-! ## Settings -/

variable {path : String}

theorem aim_below (hS : t.aim true c.scratchFolder = some S)
    (hpath : ∀ n ∈ Path.parts path, ProperName n) {follow : Bool} :
    t.aim follow (Path.join (c.stagingFolder room) path)
      = some (S ++ [c.exportName room] ++ Path.parts path) := by
  rw [h.plain_staging.aim_join hpath, h.aim_staging hS, Option.map_some]

theorem sets_of_makeFolders (hS : t.aim true c.scratchFolder = some S) (hw : c.Ready t room w)
    (hpath : ∀ n ∈ Path.parts path, ProperName n)
    (hrun : (makeFolders (Path.join (c.stagingFolder room) path)).runOn w = (.ok (), w')) :
    Sets (S ++ [c.exportName room]) (Path.parts path) .folder w w' ∧ c.Ready t room w' := by
  have hne : path ≠ "" := by
    rintro rfl
    exact (hpath "" (by simp [Path.parts_empty])).ne_empty rfl
  refine hw.sets hS (Path.parts_ne_nil path) ?_ ?_
  · refine (does_makeFolders (t := t) (fun q hq => ?_) w _ w' hw.terrain hw.tidy hrun).1
    rcases h.leadsThrough_below hpath hq with hway | ⟨front, hfront, hin⟩
    · exact .inr (.inl (.inl hway))
    · cases front with
      | nil => exact .inr (.inl (.inr hin))
      | cons n more => exact .inr (.inr ⟨n :: more, hfront, by simp, (inStaging_iff hS).mp hin⟩)
  · exact face?_of_makeFolders hw.tidy (Path.join_ne_empty _ hne) hrun
      (hw.terrain ▸ h.aim_below hS hpath)

theorem sets_of_writeBytes (hS : t.aim true c.scratchFolder = some S) (hw : c.Ready t room w)
    (hpath : ∀ n ∈ Path.parts path, ProperName n) {content : ByteArray}
    (hrun : (writeBytes (Path.join (c.stagingFolder room) path) content).runOn w = (.ok (), w')) :
    Sets (S ++ [c.exportName room]) (Path.parts path) (.file content) w w'
      ∧ c.Ready t room w' := by
  refine hw.sets hS (Path.parts_ne_nil path) ?_ ?_
  · refine (does_writeBytes (t := t) content (fun q hq => ?_) w _ w' hw.terrain hw.tidy hrun).1
    exact (Option.some.inj ((h.aim_below hS hpath).symm.trans hq)).symm
  · exact face?_of_writeBytes hrun (hw.terrain ▸ h.aim_below hS hpath)

end Config.Grounded

/-! ## Sequences -/

/-- Actions that each set something set all of it, one after another. -/
theorem setsAll_of_mapM {ε α β : Type} {f : β → FileAction ε α} {inv : Workspace → Prop}
    {base : List String} {set : β → List String × Face} {items : List β} {w w' : Workspace}
    (hstep : ∀ item ∈ items, ∀ w a w', inv w → (f item).runOn w = (.ok a, w') →
      Sets base (set item).1 (set item).2 w w' ∧ inv w')
    (hw : inv w) {results : List α} (hrun : (items.mapM f).runOn w = (.ok results, w')) :
    SetsAll base (items.map set) w w' ∧ inv w' := by
  induction items generalizing w results with
  | nil =>
      obtain ⟨-, rfl⟩ := runOn_pure_eq_ok hrun
      exact ⟨.nil w', hw⟩
  | cons item rest ih =>
      obtain ⟨a, others, between, -, hfirst, hothers⟩ := runOn_mapM_cons_eq_ok hrun
      obtain ⟨hsets, hbetween⟩ := hstep item (by simp) w a between hw hfirst
      obtain ⟨hrest, hw'⟩ := ih (fun other hother => hstep other (by simp [hother])) hbetween hothers
      exact ⟨.cons hsets hrest, hw'⟩

theorem runOn_mapM_of_forM {ε β : Type} {f : β → FileAction ε Unit} {items : List β}
    {w w' : Workspace} (hrun : (items.forM f).runOn w = (.ok (), w')) :
    ∃ results, (items.mapM f).runOn w = (.ok results, w') := by
  induction items generalizing w with
  | nil =>
      obtain ⟨-, rfl⟩ := runOn_pure_eq_ok hrun
      exact ⟨[], rfl⟩
  | cons item rest ih =>
      rw [List.forM_eq_forM, List.forM_cons] at hrun
      obtain ⟨_, between, hfirst, hrest⟩ := runOn_bind_eq_ok hrun
      obtain ⟨results, hresults⟩ := ih hrest
      exact ⟨() :: results, runOn_mapM_cons hfirst hresults⟩

/-! ## Copying -/

namespace Package

/-- What copying does with an item of the template. -/
def copyItem (staging : String) : Visit Unit := fun path names kind => do
  let target := Path.join staging ("/".intercalate names)
  match kind with
  | .folder => onPath target (FileAction.makeFolders target)
  | _ => onPath target (FileAction.copyFile path target)

/-- What writing a page sets. -/
def pageItem (page : GeneratedPage) : List String × Face :=
  (page.route.fileNames, .file (String.ofList page.source).toUTF8)

theorem fillStaging_eq (template staging : String) : fillStaging template staging = (do
    onPath staging (FileAction.makeFolders staging)
    let _ ← visitTree (copyItem staging) template) := rfl

end Package

namespace Config.Grounded

variable {c : Config} {t : Terrain} {room : String} (h : c.Grounded t room)
variable {S T : List String} {w w' : Workspace} {template : String}
variable {children : List (String × Entry)}
include h

/-- Copying an item sets it below the staging folder. -/
theorem sets_of_copyItem (hS : t.aim true c.scratchFolder = some S)
    (hbeside : ¬ S <+: T ∧ ¬ T <+: S) (hw : c.Ready t room w)
    (hstands : Package.Stands t template T children w) {item : List String × EntryKind}
    (hitem : item ∈ tourAll children) {a : Unit}
    (hrun : (visitItem (copyItem (c.stagingFolder room)) template item).runOn w = (.ok a, w')) :
    Sets (S ++ [c.exportName room]) item.1 (faceAt (.folder children) item.1) w w'
      ∧ c.Ready t room w' := by
  obtain ⟨names, k⟩ := item
  obtain ⟨hne, found, hfound, rfl, hlink⟩ := (mem_tourAll_iff hstands.tidy_children).mp hitem
  have hproper := proper_of_get? hstands.tidy_children hfound
  have hparts := Path.parts_intercalate_proper hproper hne
  have hpath : ∀ n ∈ Path.parts ("/".intercalate names), ProperName n := by rwa [hparts]
  have hface : faceAt (.folder children) names = found.face := by
    rw [faceAt, face?, hfound]
    rfl
  obtain ⟨haim, hplace⟩ := hstands.aim_below hfound hlink
  rw [hface]
  unfold visitItem copyItem at hrun
  cases found with
  | link target => exact absurd rfl hlink
  | folder kids =>
      have hsets := h.sets_of_makeFolders hS hw hpath (runOn_mapError_eq_ok hrun)
      rwa [hparts] at hsets
  | file content =>
      have hplaces : T ++ names ≠ S ++ [c.exportName room] ++ names := fun heq =>
        hbeside.1 (List.append_cancel_right heq ▸ List.prefix_append _ _)
      have haim' : w.terrain.aim true (Path.join (c.stagingFolder room) ("/".intercalate names))
          = some (S ++ [c.exportName room] ++ names) := by
        rw [hw.terrain, h.aim_below hS hpath, hparts]
      have hcopy := runOn_mapError_eq_ok hrun
      rw [runOn_copyFile (Workspace.isSame_eq_false (hw.terrain ▸ haim) haim' hplaces)] at hcopy
      obtain ⟨copied, between, hread, hwrite⟩ := runOn_bind_eq_ok hcopy
      have hsame : between = w := by
        have hreads := reads_readBytes (Path.joinAll template names) w
        rwa [hread] at hreads
      subst hsame
      have hcopied := face?_of_readBytes hread (hw.terrain ▸ haim)
      rw [face?, hplace] at hcopied
      obtain rfl : content = copied := Face.file.inj (Option.some.inj hcopied)
      have hsets := h.sets_of_writeBytes hS hw hpath hwrite
      rwa [hparts] at hsets

/-- **Copying the template** into a ready staging folder sets all that its tour goes through. -/
theorem setsAll_of_copy (hS : t.aim true c.scratchFolder = some S) (hbeside : ¬ S <+: T ∧ ¬ T <+: S)
    (hw : c.Ready t room w) (hstands : Package.Stands t template T children w)
    {results : List Unit}
    (hrun : (visitTree (copyItem (c.stagingFolder room)) template).runOn w = (.ok results, w')) :
    SetsAll (S ++ [c.exportName room]) (tourFaces children) w w' ∧ c.Ready t room w' := by
  have hkeeps : KeepsTour t template T children
      (fun w => c.Ready t room w ∧ Package.Stands t template T children w)
      (copyItem (c.stagingFolder room)) := by
    refine ⟨fun w hw => hw.2, fun item hitem w a w' ⟨hw, hstands⟩ hvisit => ?_⟩
    obtain ⟨hsets, hw'⟩ := h.sets_of_copyItem hS hbeside hw hstands hitem hvisit
    refine ⟨hw', hstands.of_face hw'.terrain hw'.tidy fun q => hsets.face_outside ?_⟩
    exact (not_prefix_beside _ hbeside q).2
  obtain ⟨htour, -⟩ := mapM_tour_of_visitTree hkeeps ⟨hw, hstands⟩ hrun
  have hall : SetsAll (S ++ [c.exportName room]) (tourFaces children) w w' ∧ c.Ready t room w'
      ∧ Package.Stands t template T children w' :=
    setsAll_of_mapM (fun item hitem w a w' hinv hvisit =>
      ⟨(h.sets_of_copyItem hS hbeside hinv.1 hinv.2 hitem hvisit).1,
        hkeeps.visit item hitem w a w' hinv hvisit⟩) ⟨hw, hstands⟩ htour
  exact ⟨hall.1, hall.2.1⟩

/-! ## Writing -/

/-- Writing a page sets its source below the staging folder. -/
theorem sets_of_writePage (hS : t.aim true c.scratchFolder = some S) (hw : c.Ready t room w)
    {page : GeneratedPage} (hpath : ∀ n ∈ Path.parts page.route.file, ProperName n) {a : Unit}
    (hrun : (writePage (c.stagingFolder room) page).runOn w = (.ok a, w')) :
    Sets (S ++ [c.exportName room]) (Path.parts page.route.file)
        (.file (String.ofList page.source).toUTF8) w w'
      ∧ c.Ready t room w' := by
  rw [writePage_eq] at hrun
  have hopen : Does t (· = S ++ [c.exportName room] ++ Path.parts page.route.file)
      (fun q => c.Opens t room q ∨ ∃ front, front <+: Path.parts page.route.file ∧ front ≠ []
        ∧ q = S ++ [c.exportName room] ++ front)
      (openParent (Path.join (c.stagingFolder room) page.route.file)) fun _ => True := by
    refine does_openParent fun parent hparent q hq => ?_
    rcases h.leadsThrough_below hpath (Terrain.leadsThrough_parent hparent hq) with
      hway | ⟨front, hfront, hin⟩
    · exact .inr (.inl (.inl hway))
    · cases front with
      | nil => exact .inr (.inl (.inr hin))
      | cons n more => exact .inr (.inr ⟨n :: more, hfront, by simp, (inStaging_iff hS).mp hin⟩)
  have hwrite : Does t (· = S ++ [c.exportName room] ++ Path.parts page.route.file)
      (fun q => c.Opens t room q ∨ ∃ front, front <+: Path.parts page.route.file ∧ front ≠ []
        ∧ q = S ++ [c.exportName room] ++ front)
      (onPath (Path.join (c.stagingFolder room) page.route.file)
        (writeText (Path.join (c.stagingFolder room) page.route.file)
          (String.ofList page.source))) fun _ => True :=
    does_onPath (does_writeText _ fun q hq =>
      (Option.some.inj ((h.aim_below hS hpath).symm.trans hq)).symm) _
  have hboth := hopen.bind fun _ _ => hwrite
  refine hw.sets hS (Path.parts_ne_nil _) (hboth w _ w' hw.terrain hw.tidy hrun).1 ?_
  obtain ⟨_, opened, hfirst, hwrite⟩ := runOn_bind_eq_ok hrun
  have hterrain := (hopen w _ opened hw.terrain hw.tidy hfirst).1.terrain
  exact face?_of_writeBytes (runOn_mapError_eq_ok hwrite)
    (hterrain.trans hw.terrain ▸ h.aim_below hS hpath)

/-- **Writing the pages** sets the source of each in its file. -/
theorem setsAll_of_writePages (hS : t.aim true c.scratchFolder = some S) (hw : c.Ready t room w)
    {pages : List Page}
    (hrun : (writePages (c.stagingFolder room) (compilePages pages)).runOn w = (.ok (), w')) :
    SetsAll (S ++ [c.exportName room]) ((compilePages pages).map pageItem) w w'
      ∧ c.Ready t room w' := by
  obtain ⟨results, hresults⟩ := runOn_mapM_of_forM hrun
  refine setsAll_of_mapM (fun page hpage w a w' hinv hstep => ?_) hw hresults
  have hroute := mem_planRoutes hpage
  have hpath : ∀ n ∈ Path.parts page.route.file, ProperName n :=
    Route.parts_file hroute ▸ Route.proper_fileNames hroute
  have hsets := h.sets_of_writePage hS hinv hpath hstep
  rwa [Route.parts_file hroute] at hsets

/-- **Patching the routes** puts the patched text in the place of the text that was staged. -/
theorem sets_of_patchRoutesFile (hS : t.aim true c.scratchFolder = some S)
    (hw : c.Ready t room w) {pages : List Page}
    (hrun : (patchRoutesFile (c.stagingFolder room) ((compilePages pages).map (·.route))).runOn w
      = (.ok (), w')) :
    ∃ (existing : String) (patched : Text), w.top.face? (S ++ [c.exportName room] ++ routesNames)
        = some (.file existing.toUTF8)
      ∧ patchPages existing.toList pages = .ok patched
      ∧ Sets (S ++ [c.exportName room]) routesNames (.file (String.ofList patched).toUTF8) w w'
      ∧ c.Ready t room w' := by
  have hpath : ∀ n ∈ Path.parts routesFile, ProperName n := parts_routesFile ▸ proper_routesNames
  have haim : t.aim true (Path.join (c.stagingFolder room) routesFile) = _ := h.aim_below hS hpath
  obtain ⟨existing, between, hread, hrest⟩ := runOn_bind_eq_ok hrun
  have hread := runOn_mapError_eq_ok hread
  have hsame : between = w := by
    have hreads := reads_readText (Path.join (c.stagingFolder room) routesFile) w
    rwa [hread] at hreads
  subst hsame
  have hexisting := face?_of_readText hread (hw.terrain ▸ haim)
  rw [parts_routesFile] at hexisting
  refine ⟨existing, ?_⟩
  rw [map_route_compilePages] at hrest
  dsimp only at hrest
  cases hpatch : patchPages existing.toList pages with
  | error e =>
      unfold patchPages importLines tableEntries at hpatch
      rw [hpatch] at hrest
      exact absurd hrest runOn_throw_ne_ok
  | ok patched =>
      unfold patchPages importLines tableEntries at hpatch
      rw [hpatch] at hrest
      have hsets := h.sets_of_writeBytes hS hw hpath (runOn_mapError_eq_ok hrest)
      rw [parts_routesFile] at hsets
      exact ⟨patched, hexisting, rfl, hsets⟩

/-! ## What is staged -/

/-- **What is copied** is the template without its links, whatever was in the staging folder. -/
theorem face?_fillStaging {w₁ : Workspace} (hdirect : c.IsDirect room w) (ht : w.terrain = t)
    (htidy : w.top.Tidy) (hS : t.aim true c.scratchFolder = some S)
    (hT : t.aim true template = some T) (hbeside : ¬ S <+: T ∧ ¬ T <+: S)
    (hfolder : w.isFolder template = true)
    (hclear : (clearStaging (c.stagingFolder room)).runOn w = (.ok (), w₁))
    (hfill : (fillStaging template (c.stagingFolder room)).runOn w₁ = (.ok (), w')) :
    c.Ready t room w' ∧ ∀ q, q ≠ [] →
      w'.top.face? (S ++ [c.exportName room] ++ q) = unlinked (w.top.face? (T ++ q)) := by
  rw [fillStaging_eq] at hfill
  obtain ⟨_, w₂, hmake, hfill⟩ := runOn_bind_eq_ok hfill
  obtain ⟨results, w₃, hcopy, hend⟩ := runOn_bind_eq_ok hfill
  obtain ⟨-, rfl⟩ := runOn_pure_eq_ok hend
  obtain ⟨hready, hempty, hkept⟩ := h.ready_of_makeFolders hdirect ht htidy hS hclear
    (runOn_mapError_eq_ok hmake)
  obtain ⟨children, hchildren⟩ := face?_eq_folder_iff.mp
    (Workspace.face?_of_isFolder hfolder (ht ▸ hT))
  have htemplate : w₂.top.get? T = w.top.get? T :=
    get?_eq_of_face? htidy hready.tidy fun q => by
      obtain ⟨habove, hbelow⟩ := not_prefix_beside (c.exportName room) hbeside q
      exact hkept (T ++ q) habove hbelow
  have hstands : Package.Stands t template T children w₂ :=
    ⟨hready.terrain, hready.tidy, hT, htemplate.trans hchildren⟩
  obtain ⟨hsets, hready'⟩ := h.setsAll_of_copy hS hbeside hready hstands hcopy
  refine ⟨hready', fun q hq => ?_⟩
  have hlower : w₂.top.face? (S ++ [c.exportName room] ++ q) = none := by
    obtain ⟨n, more, rfl⟩ := List.exists_cons_of_ne_nil hq
    rw [← List.append_cons]
    exact hempty n more
  calc w'.top.face? (S ++ [c.exportName room] ++ q)
      = overlay (fun q => w₂.top.face? (S ++ [c.exportName room] ++ q)) (tourFaces children) q :=
        hsets.face_below (distinct_tourFaces hstands.tidy_children) q
    _ = overlay (fun _ => none) (tourFaces children) q := overlay_congr hlower
    _ = unlinked ((Entry.folder children).face? q) := overlay_tourFaces hstands.tidy_children hq
    _ = unlinked (w.top.face? (T ++ q)) := by
        rw [face?, face?, get?_append, hchildren, Option.bind_some]

end Config.Grounded

namespace Package

/-- What an export sets over the template: its pages, and the routes with this text. -/
def settings (pages : List Page) (routes : Text) : List (List String × Face) :=
  (compilePages pages).map pageItem ++ [(routesNames, .file (String.ofList routes).toUTF8)]

theorem routesNames_not_above (r : Route) : ¬ routesNames <+: r.fileNames := by
  simp [routesNames, Route.fileNames, List.cons_prefix_cons]

theorem distinct_pageItems (pages : List Page) :
    ((compilePages pages).map pageItem).Pairwise (·.1 ≠ ·.1) := by
  have hfiles : ((compilePages pages).map (·.route.fileNames)).Nodup :=
    nodup_routes (fun r s heq => by simpa [Route.fileNames] using heq) pages
  rw [List.pairwise_map]
  exact List.pairwise_map.mp hfiles

theorem distinct_settings (pages : List Page) (routes : Text) :
    (settings pages routes).Pairwise (·.1 ≠ ·.1) := by
  refine List.pairwise_append.mpr ⟨distinct_pageItems pages, by simp, ?_⟩
  intro item hitem other hother heq
  obtain ⟨page, -, rfl⟩ := List.mem_map.mp hitem
  obtain rfl := List.mem_singleton.mp hother
  have hsame : page.route.fileNames = routesNames := heq
  exact routesNames_not_above page.route (hsame ▸ List.prefix_refl _)

end Package

namespace Config.Grounded

variable {c : Config} {t : Terrain} {room : String} (h : c.Grounded t room)
variable {S T : List String} {w w' : Workspace}
include h

/-- **What is staged** is the template overlaid with this run's pages and routes. -/
theorem face?_staged {w₁ w₂ w₃ : Workspace} {pages : List Page} (hdirect : c.IsDirect room w)
    (ht : w.terrain = t) (htidy : w.top.Tidy) (hS : t.aim true c.scratchFolder = some S)
    (hT : t.aim true c.templateFolder = some T) (hbeside : ¬ S <+: T ∧ ¬ T <+: S)
    (hfolder : w.isFolder c.templateFolder = true)
    (hclear : (clearStaging (c.stagingFolder room)).runOn w = (.ok (), w₁))
    (hfill : (fillStaging c.templateFolder (c.stagingFolder room)).runOn w₁ = (.ok (), w₂))
    (hwrite : (writePages (c.stagingFolder room) (compilePages pages)).runOn w₂ = (.ok (), w₃))
    (hpatch : (patchRoutesFile (c.stagingFolder room) ((compilePages pages).map (·.route))).runOn w₃
      = (.ok (), w')) :
    c.Ready t room w' ∧ ∃ (existing : String) (patched : Text),
      w.top.face? (T ++ routesNames) = some (.file existing.toUTF8)
        ∧ patchPages existing.toList pages = .ok patched
        ∧ ∀ q, q ≠ [] → w'.top.face? (S ++ [c.exportName room] ++ q)
          = overlay (fun q => unlinked (w.top.face? (T ++ q))) (settings pages patched) q := by
  obtain ⟨hready₂, hcopied⟩ :=
    h.face?_fillStaging hdirect ht htidy hS hT hbeside hfolder hclear hfill
  obtain ⟨hpages, hready₃⟩ := h.setsAll_of_writePages hS hready₂ hwrite
  obtain ⟨existing, patched, hexisting, hpatched, hroutes, hready⟩ :=
    h.sets_of_patchRoutesFile hS hready₃ hpatch
  refine ⟨hready, existing, patched, ?_, hpatched, fun q hq => ?_⟩
  · -- No page is written at the routes file or below it.
    have hkept := hpages.face_other (q := routesNames) fun item hitem hpre => by
      obtain ⟨page, -, rfl⟩ := List.mem_map.mp hitem
      exact routesNames_not_above page.route hpre
    rw [hexisting, hcopied _ (by simp [routesNames])] at hkept
    cases hface : w.top.face? (T ++ routesNames) with
    | none => simp [hface, unlinked] at hkept
    | some face => cases face <;> simp_all [unlinked]
  · have hall : SetsAll (S ++ [c.exportName room]) (settings pages patched) w₂ w' :=
      hpages.append (.cons hroutes (.nil w'))
    rw [hall.face_below (distinct_settings pages patched)]
    exact overlay_congr (hcopied q hq)

end Config.Grounded

end CanvasFlutter
