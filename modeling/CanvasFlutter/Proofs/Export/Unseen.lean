import CanvasFlutter.Proofs.Export.Staging
import CanvasFlutter.Proofs.Workspace.Alike

namespace CanvasFlutter

/-!
# `CanvasFlutter.Proofs.Export.Unseen` — an export does not see what is out of its way

An export comes by the places that its paths lead through, by all below the template and by what
belongs to its room. What is hidden elsewhere makes no difference to it: each of its steps has the
same result whatever is hidden, and leaves the hidden places to themselves.

## Contents
- **Walking.** `ignores_visitTree`: a walk sees what its listings and its visits see.
- **Staging.** `Config.Overlooks`; `ignores_copy`, `ignores_writePages`, `ignores_patchRoutesFile`.
- **Archiving.** `ignores_writeArchive`.
- **Rooms.** `ignores_build`, `ignores_package`, `ignores_cleanUp`, `ignores_exportRoom`.
-/

open Entry Package FileAction

/-! ## Walking -/

namespace Package

variable {α β : Type} {t : Terrain} {hidden : List String → Prop} {visit : Visit α}

theorem ignores_onPath {action : FileAction FileFault α} {post : α → Prop}
    (h : Ignores t hidden action post) (path : String) :
    Ignores t hidden (onPath path action) post := h.mapError _

theorem ignores_openParent {path : String} (hpath : t.Avoids hidden path) :
    Ignores t hidden (openParent path) fun _ => True := by
  unfold openParent
  split
  · next parent hparent => exact ignores_onPath (ignores_makeFolders (hpath.parent hparent)) _
  · exact ignores_pure trivial

/-- A walk from a place below which nothing is hidden. -/
theorem ignores_visitFolder {root : List String} (hbelow : ∀ names, ¬ hidden (root ++ names))
    (hvisit : ∀ path names kind, t.Avoids hidden path → names ≠ [] → (∀ n ∈ names, ProperName n) →
      Ignores t hidden (visit path names kind) fun _ => True)
    (fuel : Nat) {path : String} {names : List String} (hnames : ∀ n ∈ names, ProperName n)
    (hpath : t.Avoids hidden path) (haim : t.aim true path = some (root ++ names))
    {listing : List (String × EntryKind)} (hlisting : ∀ item ∈ listing, ProperName item.1
      ∧ (item.2 ≠ .link → t.links (root ++ names ++ [item.1]) = none)) :
    Ignores t hidden (visitFolder visit fuel path names listing) fun _ => True := by
  induction fuel generalizing path names listing with
  | zero => exact ignores_throw _
  | succ fuel ih =>
      have hall : ∀ item ∈ listing, Ignores t hidden (visitChild visit fuel path names item)
          fun _ => True := by
        rintro ⟨name, kind⟩ hitem
        obtain ⟨hname, hlink⟩ := hlisting _ hitem
        have hparts := Path.parts_proper hname
        have hproper : ∀ n ∈ Path.parts name, ProperName n := by simpa [hparts] using hname
        have hchild : ∀ n ∈ names ++ [name], ProperName n := by
          intro n hn
          rcases List.mem_append.mp hn with hn | hn
          · exact hnames n hn
          · exact List.mem_singleton.mp hn ▸ hname
        -- What is no link is at the child's place, which is in plain sight.
        have hclear : kind ≠ .link → ∀ p, t.aim true path = some p → t.IsClear p (Path.parts name) := by
          intro hkind p hp front hfront hne
          obtain rfl := Option.some.inj (haim.symm.trans hp)
          obtain ⟨n, more, rfl⟩ := List.exists_cons_of_ne_nil hne
          rw [hparts] at hfront
          obtain ⟨rfl, rfl⟩ : n = name ∧ more = [] := by simpa using hfront
          exact hlink hkind
        have hsight : kind ≠ .link → t.Avoids hidden (Path.join path name) := by
          intro hkind
          refine hpath.join hproper (hclear hkind) fun p front hp _ _ => ?_
          obtain rfl := Option.some.inj (haim.symm.trans hp)
          rw [List.append_assoc]
          exact hbelow _
        have hplace : kind ≠ .link →
            t.aim true (Path.join path name) = some (root ++ (names ++ [name])) := by
          intro hkind
          rw [Terrain.aim_join hproper (hclear hkind), haim, hparts]
          simp
        cases kind with
        | link => exact ignores_pure trivial
        | file =>
            exact (hvisit _ _ _ (hsight (by simp)) (by simp) hchild).bind
              fun result _ => ignores_pure trivial
        | folder =>
            have haimed := hplace (by simp)
            have hinside : ∀ q, t.aim true (Path.join path name) = some q →
                ∀ n, ¬ hidden (q ++ [n]) := by
              intro q hq n
              obtain rfl := Option.some.inj (haimed.symm.trans hq)
              rw [List.append_assoc]
              exact hbelow _
            refine (ignores_listFolder (hsight (by simp)) hinside).attempt.bind
              fun inside hlisted => ?_
            refine (hvisit _ _ _ (hsight (by simp)) (by simp) hchild).bind fun result _ => ?_
            cases inside with
            | ok inside =>
                obtain ⟨q, hq, hitems⟩ := hlisted inside rfl
                obtain rfl := Option.some.inj (haimed.symm.trans hq)
                exact (ih hchild (hsight (by simp)) haimed hitems).bind
                  fun rest _ => ignores_pure trivial
            | error fault => exact ignores_throw _
      rw [visitFolder_succ]
      exact (ignores_mapM hall).bind fun results _ => ignores_pure trivial

/-- **A walk sees what its listings and its visits see**, and all of that is below its top. -/
theorem ignores_visitTree {path : String} (hpath : t.Avoids hidden path)
    (hbelow : ∀ root, t.aim true path = some root → ∀ names, ¬ hidden (root ++ names))
    (hvisit : ∀ path names kind, t.Avoids hidden path → names ≠ [] → (∀ n ∈ names, ProperName n) →
      Ignores t hidden (visit path names kind) fun _ => True) :
    Ignores t hidden (visitTree visit path) fun _ => True := by
  refine (ignores_listFolder hpath fun q hq n => hbelow q hq [n]).attempt.bind
    fun listing hlisted => ?_
  cases listing with
  | ok listing =>
      obtain ⟨root, haim, hitems⟩ := hlisted listing rfl
      have haimed : t.aim true path = some (root ++ []) := by rwa [List.append_nil]
      refine ignores_visitFolder (hbelow root haim) hvisit _ (by simp) hpath haimed ?_
      simpa using hitems
  | error fault =>
      refine (ignores_exists? hpath).bind fun found _ => ?_
      cases found with
      | true => exact ignores_pure trivial
      | false => exact ignores_throw _

end Package

/-! ## Staging -/

namespace Package

/-- What is done once the staging folder has been made. -/
def build (c : Config) (room : String) (pages : List GeneratedPage) : ExportAction Unit := do
  let _ ← visitTree (copyItem (c.stagingFolder room)) c.templateFolder
  writePages (c.stagingFolder room) pages
  patchRoutesFile (c.stagingFolder room) (pages.map GeneratedPage.route)
  writeArchive (c.stagingFolder room) (c.archivePath room) (c.exportName room) c.level

theorem package_eq_build (c : Config) (room : String) (pages : List GeneratedPage) :
    package c room pages = (do
      checkTemplate c.templateFolder
      clearStaging (c.stagingFolder room)
      onPath (c.stagingFolder room) (makeFolders (c.stagingFolder room))
      build c room pages) := by
  rw [package_eq]
  simp only [fillStaging_eq, build, bind_assoc, pure_bind]

variable {t : Terrain} {hidden : List String → Prop}

theorem ignores_checkTemplate {template : String} (htemplate : t.Avoids hidden template) :
    Ignores t hidden (checkTemplate template) fun _ => True := by
  refine (ignores_isFolder htemplate).bind fun found _ => ?_
  cases found with
  | true => exact ignores_pure trivial
  | false => exact ignores_throw _

theorem ignores_pages {folder room : String}
    (hcanvas : t.Avoids hidden (Path.join folder (room ++ ".json"))) :
    Ignores t hidden ((Store.ofFolder folder).pages room) fun _ => True := by
  have hstore : Ignores t hidden (Store.ofFolder folder room) fun _ => True := by
    unfold Store.ofFolder canvasPath?
    by_cases hroom : isRoomCode room = true
    · rw [if_pos hroom]
      refine (ignores_readText hcanvas).attempt.bind fun text _ => ?_
      split
      · exact ignores_pure trivial
      · exact ignores_pure trivial
      · exact ignores_throw _
    · rw [if_neg hroom]
      exact ignores_pure trivial
  refine hstore.bind fun text _ => ?_
  cases loadPages room text with
  | ok pages => exact ignores_pure trivial
  | error e => exact ignores_throw e

end Package

namespace Config

/-- What is hidden is out of the way of a room's export: neither the scratch folder's path nor the
template's comes by it, and it is neither below the template nor below what belongs to the room. -/
structure Overlooks (c : Config) (t : Terrain) (hidden : List String → Prop) (room : String) :
    Prop where
  scratch : t.Avoids hidden c.scratchFolder
  template : t.Avoids hidden c.templateFolder
  below : ∀ root, t.aim true c.templateFolder = some root → ∀ names, ¬ hidden (root ++ names)
  own : ∀ q, c.Owns t room q → ∀ names, ¬ hidden (q ++ names)

namespace Overlooks

variable {c : Config} {t : Terrain} {hidden : List String → Prop} {room path name : String}
variable (hover : c.Overlooks t hidden room) (h : c.Grounded t room)
include hover h

/-- A name in the scratch folder that belongs to the room. -/
theorem avoids_name (hname : ProperName name) (hown : ∀ q, c.InScratch t [name] q → c.Owns t room q) :
    t.Avoids hidden (Path.join c.scratchFolder name) := by
  have hparts := Path.parts_proper hname
  refine hover.scratch.join (by simpa [hparts] using hname) (fun p hp => h.plain.isClear hp) ?_
  intro p front hp hfront hne
  rw [hparts] at hfront
  obtain ⟨n, more, rfl⟩ := List.exists_cons_of_ne_nil hne
  obtain ⟨rfl, rfl⟩ : n = name ∧ more = [] := by simpa using hfront
  have hself := hover.own _ (hown _ ⟨p, hp, rfl⟩) []
  rwa [List.append_nil] at hself

theorem avoids_staging : t.Avoids hidden (c.stagingFolder room) :=
  hover.avoids_name h h.staging fun _ hq => .inl ⟨[], hq⟩

theorem avoids_archive : t.Avoids hidden (c.archivePath room) :=
  hover.avoids_name h h.archive fun _ hq => .inr (.inl hq)

theorem avoids_unfinished : t.Avoids hidden (partialPath (c.archivePath room)) := by
  rw [partialPath_archivePath h.archive.ne_empty]
  exact hover.avoids_name h h.unfinished fun _ hq => .inr (.inr hq)

/-- Nothing is hidden at the staging folder or below. -/
theorem below_staging {follow : Bool} {root : List String}
    (hroot : t.aim follow (c.stagingFolder room) = some root) (names : List String) :
    ¬ hidden (root ++ names) := by
  exact hover.own root (.inl ⟨[], inScratch_of_aim h.aim_stagingFolder hroot⟩) names

theorem avoids_below (hpath : ∀ n ∈ Path.parts path, ProperName n) :
    t.Avoids hidden (Path.join (c.stagingFolder room) path) :=
  (hover.avoids_staging h).join hpath (fun _ hp => h.plain_staging.isClear hp)
    fun _ front hp _ _ => hover.below_staging h hp front

theorem ignores_clearStaging :
    Ignores t hidden (clearStaging (c.stagingFolder room)) fun _ => True := by
  refine (ignores_exists? (hover.avoids_staging h)).bind fun found _ => ?_
  cases found with
  | false => exact ignores_pure trivial
  | true =>
      refine ignores_onPath (ignores_removeTree (hover.avoids_staging h) fun q hq p hp => ?_) _
      obtain ⟨place, hplace, rfl⟩ := inScratch_of_aim h.aim_stagingFolder hq
      obtain ⟨more, rfl⟩ := hp
      rw [List.append_assoc]
      exact h.plain place hplace _ _

theorem ignores_cleanUp : Ignores t hidden (cleanUp (c.stagingFolder room)) fun _ => True := by
  refine (ignores_exists? (hover.avoids_staging h)).bind fun found _ => ?_
  cases found with
  | false => exact ignores_pure trivial
  | true =>
      have hremove : Ignores t hidden (removeTree (c.stagingFolder room)) fun _ => True := by
        refine ignores_removeTree (hover.avoids_staging h) fun q hq p hp => ?_
        obtain ⟨place, hplace, rfl⟩ := inScratch_of_aim h.aim_stagingFolder hq
        obtain ⟨more, rfl⟩ := hp
        rw [List.append_assoc]
        exact h.plain place hplace _ _
      exact hremove.attempt.bind fun _ _ => ignores_pure trivial

theorem ignores_makeStaging :
    Ignores t hidden (onPath (c.stagingFolder room) (makeFolders (c.stagingFolder room)))
      fun _ => True := ignores_onPath (ignores_makeFolders (hover.avoids_staging h)) _

theorem ignores_copy :
    Ignores t hidden (visitTree (copyItem (c.stagingFolder room)) c.templateFolder)
      fun _ => True := by
  refine ignores_visitTree hover.template hover.below fun path names kind hpath hne hnames => ?_
  have hparts := Path.parts_intercalate_proper hnames hne
  have htarget : t.Avoids hidden (Path.join (c.stagingFolder room) ("/".intercalate names)) :=
    hover.avoids_below h (by rwa [hparts])
  cases kind with
  | folder => exact ignores_onPath (ignores_makeFolders htarget) _
  | file => exact ignores_onPath (ignores_copyFile hpath htarget) _
  | link => exact ignores_onPath (ignores_copyFile hpath htarget) _

theorem ignores_writePages (pages : List Page) :
    Ignores t hidden (writePages (c.stagingFolder room) (compilePages pages)) fun _ => True := by
  unfold writePages
  refine ignores_forM fun page hpage => ?_
  have hroute := mem_planRoutes hpage
  have hpath : t.Avoids hidden (Path.join (c.stagingFolder room) page.route.file) := by
    refine hover.avoids_below h ?_
    rw [Route.parts_file hroute]
    exact Route.proper_fileNames hroute
  rw [writePage_eq]
  exact (ignores_openParent hpath).bind fun _ _ => ignores_onPath (ignores_writeText hpath _) _

theorem ignores_patchRoutesFile (routes : List Route) :
    Ignores t hidden (patchRoutesFile (c.stagingFolder room) routes) fun _ => True := by
  have hpath : t.Avoids hidden (Path.join (c.stagingFolder room) routesFile) :=
    hover.avoids_below h (parts_routesFile ▸ proper_routesNames)
  refine ((ignores_readText hpath).mapError _).bind fun existing _ => ?_
  dsimp only
  split
  · exact ignores_onPath (ignores_writeText hpath _) _
  · exact ignores_throw _

/-! ## Archiving -/

theorem ignores_compress (folder : String) (level : Int) :
    Ignores t hidden (compress (c.stagingFolder room) (partialPath (c.archivePath room)) folder level)
      fun _ => True := by
  have hwrite : ∀ content, Ignores t hidden (onPath (partialPath (c.archivePath room))
      (writeBytes (partialPath (c.archivePath room)) content)) fun _ => True := fun content =>
    ignores_onPath (ignores_writeBytes (hover.avoids_unfinished h) content) _
  refine (hwrite _).bind fun _ _ => ?_
  refine (ignores_visitTree (hover.avoids_staging h) (fun _ hroot => hover.below_staging h hroot)
    fun path names kind hpath _ _ => ?_).bind fun entries _ => hwrite _
  unfold archiveEntry
  dsimp only
  split
  · exact ignores_pure trivial
  · split
    · exact (ignores_onPath (ignores_readBytes hpath) _).bind fun content _ => ignores_pure trivial
    · exact ignores_throw _

theorem ignores_writeArchive (folder : String) (level : Int) :
    Ignores t hidden (writeArchive (c.stagingFolder room) (c.archivePath room) folder level)
      fun _ => True := by
  have hunfinished : ∀ q, t.aim false (partialPath (c.archivePath room)) = some q →
      c.InScratch t [c.exportName room ++ ".zip.partial"] q := fun q hq =>
    inScratch_of_aim h.aim_partialPath hq
  have hdrop : ∀ e, Ignores t hidden (do
      let _ ← attempt (removeFile (partialPath (c.archivePath room))); throw e :
        ExportAction Unit) fun _ => True := by
    intro e
    refine (ignores_removeFile (hover.avoids_unfinished h) fun q hq => ?_).attempt.bind
      fun _ _ => ignores_throw e
    obtain ⟨place, hplace, rfl⟩ := hunfinished q hq
    exact h.plain place hplace _ []
  rw [writeArchive_eq]
  refine (ignores_openParent (hover.avoids_archive h)).bind fun _ _ w v halike => ?_
  obtain ⟨hresult, hafter, -⟩ := hover.ignores_compress h folder level w v halike
  rw [runOn_bind, runOn_attempt, runOn_bind, runOn_attempt]
  cases hw : (compress (c.stagingFolder room) (partialPath (c.archivePath room)) folder level).runOn
      w with
  | mk first w₁ =>
      cases hv : (compress (c.stagingFolder room) (partialPath (c.archivePath room)) folder
          level).runOn v with
      | mk second v₁ =>
          rw [hw, hv] at hresult hafter
          obtain rfl : second = first := hresult
          cases second with
          | error e => exact hdrop e w₁ v₁ hafter
          | ok _ =>
              -- Both archives are complete, so both may take their place.
              obtain ⟨place, name, content, hfile⟩ := exists_file_of_compress hw
              obtain ⟨place', name', content', hfile'⟩ := exists_file_of_compress hv
              have hrenamed := h.alters_rename hafter.terrain.1 hafter.tidy.1 hfile Prod.mk.eta.symm
              have hrenamed' := h.alters_rename hafter.terrain.2 hafter.tidy.2 hfile' Prod.mk.eta.symm
              obtain ⟨hsame, hface⟩ := agrees_renameFile hafter (hover.avoids_unfinished h)
                (hover.avoids_archive h) fun q hq => hover.own q (.inr (.inr (hunfinished q hq)))
              have hmoved : Workspace.Alike t hidden
                  ((renameFile (partialPath (c.archivePath room)) (c.archivePath room)).runOn w₁).2
                  ((renameFile (partialPath (c.archivePath room)) (c.archivePath room)).runOn v₁).2 :=
                ⟨⟨hrenamed.terrain.trans hafter.terrain.1, hrenamed'.terrain.trans hafter.terrain.2⟩,
                  ⟨hrenamed.tidy hafter.tidy.1, hrenamed'.tidy hafter.tidy.2⟩, hface⟩
              dsimp only
              rw [onPath, runOn_mapError, runOn_mapError, hsame]
              exact ⟨rfl, hmoved, fun _ _ => trivial⟩

/-! ## Rooms -/

theorem ignores_build (pages : List Page) :
    Ignores t hidden (build c room (compilePages pages)) fun _ => True := by
  refine (hover.ignores_copy h).bind fun _ _ => ?_
  refine (hover.ignores_writePages h pages).bind fun _ _ => ?_
  refine (hover.ignores_patchRoutesFile h _).bind fun _ _ => ?_
  exact hover.ignores_writeArchive h _ _

theorem ignores_package (pages : List Page) :
    Ignores t hidden (package c room (compilePages pages)) fun _ => True := by
  rw [package_eq_build]
  refine (ignores_checkTemplate hover.template).bind fun _ _ => ?_
  refine (hover.ignores_clearStaging h).bind fun _ _ => ?_
  refine (hover.ignores_makeStaging h).bind fun _ _ => ?_
  exact hover.ignores_build h pages

/-- **An export ignores what is out of its way**, if its canvas is in plain sight. -/
theorem ignores_exportRoom
    (hcanvas : t.Avoids hidden (Path.join c.canvasesFolder (room ++ ".json"))) :
    Ignores t hidden (exportRoom c (Store.ofFolder c.canvasesFolder) room) fun _ => True := by
  refine (ignores_pages hcanvas).bind fun pages _ => ?_
  refine (hover.ignores_package h pages).attempt.bind fun result _ => ?_
  refine (hover.ignores_cleanUp h).bind fun _ _ => ?_
  cases result with
  | ok _ => exact ignores_pure trivial
  | error e => exact ignores_throw e

end Overlooks

end Config

end CanvasFlutter
