import CanvasFlutter.Proofs.Bytes.Archive
import CanvasFlutter.Proofs.Command.Tidy
import CanvasFlutter.Proofs.Export.Spared
import CanvasFlutter.Proofs.Export.Staging

namespace CanvasFlutter

/-!
# `CanvasFlutter.Proofs.Command.Tasks` — exports and cleanings one after another

Nothing checks whether the three folders of a configuration overlap, so what is safe is what each of
the tasks spares in the workspace that it is done in. Where the scratch folder is bare a task leaves
all links, so paths point where they did when the next task begins, and then it is enough to lie
outside of what the tasks touch.

## Contents
- **Tasks.** `Command.Task`, `runTasks`; `Task.Touches`: the places that a task may change;
  `Task.Spares`: the places that it leaves alone.
- **Steps.** `alters_task`, `task_keeps`: one task.
- **Runs.** `alters_runTasks`, `spares_runTasks`, `runTasks_keeps_files`.
-/

open Entry Package FileAction

namespace Command

/-! ## Tasks -/

/-- A command that works on exports. -/
inductive Task where
  | exportRoom (room : String)
  | clean
  deriving DecidableEq

/-- What a task does with a configuration. -/
def Task.run (c : Config) : Task → CommandAction Unit
  | .exportRoom room => exportWith c room
  | .clean => cleanWith c

/-- The workspace after tasks one after another, whether they fail or not. -/
def runTasks (c : Config) (tasks : List Task) (w : Workspace) : Workspace :=
  tasks.foldl (fun w task => ((task.run c).runOn w).2.workspace) w

/-- The places where a task may change files and folders: an export what belongs to its room, a
cleaning the scratch folder. -/
def Task.Touches (c : Config) (t : Terrain) (task : Task) (q : List String) : Prop :=
  match task with
  | .exportRoom room => isRoomCode room = true ∧ c.Owns t room q
  | .clean => ∃ place, t.aim true c.scratchFolder = some place ∧ place <+: q

/-- A task leaves a place alone: an export whose canvas can be loaded spares it, and a folder that
the scratch path leads to when it is cleaned does not hold it. -/
def Task.Spares (c : Config) (w : Workspace) (q : List String) : Task → Prop
  | .exportRoom room => ∀ pages,
      (((Store.ofFolder c.canvasesFolder).pages room).runOn w).1 = .ok pages → c.Spares room w q
  | .clean => w.exists? c.scratchFolder = true → ∀ place children,
      w.resolve false c.scratchFolder = .ok (.taken place (.folder children)) → ¬ place <+: q

/-! ## Steps -/

variable {c : Config} {t : Terrain} {w : Workspace} {q : List String} {content : ByteArray}

/-- What a task touches is in the scratch folder. -/
theorem Task.exists_scratch {task : Task} (h : task.Touches c t q) :
    ∃ place, t.aim true c.scratchFolder = some place ∧ place <+: q := by
  cases task with
  | clean => exact h
  | exportRoom room =>
      obtain ⟨-, ⟨_, place, hplace, rfl⟩ | ⟨place, hplace, rfl⟩ | ⟨place, hplace, rfl⟩⟩ := h
      all_goals exact ⟨place, hplace, List.prefix_append _ _⟩

/-- Where the scratch folder is bare a task spares what it does not touch. -/
theorem Task.spares (hc : c.fault? = none) (hbare : w.terrain.IsBare c.scratchFolder)
    (htidy : w.top.Tidy) {task : Task} (hq : ¬ task.Touches c w.terrain q) :
    task.Spares c w q := by
  cases task with
  | exportRoom room =>
      intro pages hpages
      have hroom : isRoomCode room = true := isRoomCode_of_pages hpages
      have h := Config.grounded hc (isRoomText_of_isRoomCode hroom) hbare.plain
      exact h.toSettled.spares htidy fun howns => hq ⟨hroom, howns⟩
  | clean =>
      intro _ place children hresolve hprefix
      have haim := hbare.links_eq_none (Workspace.aim_of_resolve hresolve) (List.prefix_refl place)
      exact hq ⟨place, haim.1, hprefix⟩

theorem workspace_exportTask (c : Config) (room : String) (w : Workspace) :
    (((Task.exportRoom room).run c).runOn w).2.workspace
      = ((exportRoom c (Store.ofFolder c.canvasesFolder) room).runOn w).2 :=
  workspace_exportWith c room ⟨w, []⟩

theorem workspace_cleanTask (c : Config) (w : Workspace) :
    ((Task.clean.run c).runOn w).2.workspace
      = if w.exists? c.scratchFolder then ((removeTree c.scratchFolder).runOn w).2 else w :=
  workspace_cleanWith c ⟨w, []⟩

/-- An export alters what it touches, and makes missing folders on the way to the scratch folder. -/
theorem alters_exportTask (hc : c.fault? = none) (hplain : w.terrain.IsPlain c.scratchFolder)
    (htidy : w.top.Tidy) (room : String) :
    w.Alters ((Task.exportRoom room).Touches c w.terrain) (w.terrain.LeadsThrough c.scratchFolder)
      (((Task.exportRoom room).run c).runOn w).2.workspace := by
  rw [workspace_exportTask]
  cases hroom : isRoomCode room with
  | false =>
      rw [exportRoom_of_not_isRoomCode hroom]
      exact .refl _ _ _
  | true =>
      have hgrounded := Config.grounded hc (isRoomText_of_isRoomCode hroom) hplain
      have hdoes := hgrounded.does_exportRoom (Store.isLookup_ofFolder c.canvasesFolder)
      exact (hdoes.alters rfl htidy).mono (fun _ hq => ⟨hroom, hq⟩) fun _ => .inr

/-- A task alters what it touches, and makes missing folders on the way to the scratch folder. -/
theorem alters_task (hc : c.fault? = none) (hbare : w.terrain.IsBare c.scratchFolder)
    (htidy : w.top.Tidy) (task : Task) :
    w.Alters (task.Touches c w.terrain) (w.terrain.LeadsThrough c.scratchFolder)
      ((task.run c).runOn w).2.workspace := by
  cases task with
  | exportRoom room => exact alters_exportTask hc hbare.plain htidy room
  | clean =>
      have hremove : Does w.terrain (Task.clean.Touches c w.terrain)
          (w.terrain.LeadsThrough c.scratchFolder) (removeTree c.scratchFolder) fun _ => True := by
        refine does_removeTree fun place hplace q hq => ?_
        obtain ⟨haim, hlink⟩ := hbare.links_eq_none hplace hq
        exact ⟨⟨place, haim, hq⟩, hlink⟩
      rw [workspace_cleanTask]
      split
      · exact hremove.alters rfl htidy
      · exact .refl _ _ _

theorem Task.keepsTidy (c : Config) (task : Task) : (task.run c).KeepsTidy := by
  cases task with
  | exportRoom room => exact keepsTidy_exportWith c room
  | clean => exact keepsTidy_cleanWith c

/-- One task keeps the files that it spares. -/
theorem task_keeps (hc : c.fault? = none) (htidy : w.top.Tidy)
    (hfile : w.top.face? q = some (.file content)) {task : Task} (hspares : task.Spares c w q) :
    ((task.run c).runOn w).2.workspace.top.face? q = some (.file content) := by
  cases task with
  | exportRoom room =>
      rw [workspace_exportTask]
      cases hroom : isRoomCode room with
      | false =>
          rw [exportRoom_of_not_isRoomCode hroom]
          exact hfile
      | true =>
          exact exportRoom_keeps hc (isRoomText_of_isRoomCode hroom)
            (Store.isLookup_ofFolder c.canvasesFolder) htidy hfile hspares
  | clean =>
      rw [workspace_cleanTask]
      split
      · next hfound => exact keeps_removeTree hfile (hspares hfound) Prod.mk.eta.symm
      · exact hfile

/-! ## Runs -/

/-- **A sequence of tasks alters what its tasks touch.** -/
theorem alters_runTasks (hc : c.fault? = none) (hbare : w.terrain.IsBare c.scratchFolder)
    (htidy : w.top.Tidy) (tasks : List Task) :
    w.Alters (fun q => ∃ task ∈ tasks, task.Touches c w.terrain q)
      (w.terrain.LeadsThrough c.scratchFolder) (runTasks c tasks w) := by
  induction tasks generalizing w with
  | nil => exact .refl _ _ _
  | cons task rest ih =>
      have hfirst := alters_task hc hbare htidy task
      have hterrain := hfirst.terrain
      have hrest := ih (hterrain ▸ hbare) (hfirst.tidy htidy)
      rw [hterrain] at hrest
      refine (hfirst.mono (fun q hq => ⟨task, by simp, hq⟩) fun _ => .inr).trans ?_
      exact hrest.mono (fun q ⟨other, hother, hq⟩ => ⟨other, by simp [hother], hq⟩) fun _ => .inr

/-- Where the scratch folder is bare each of a sequence of tasks spares what none of them touches. -/
theorem spares_runTasks (hc : c.fault? = none) (hbare : w.terrain.IsBare c.scratchFolder)
    (htidy : w.top.Tidy) {tasks : List Task} (hq : ∀ task ∈ tasks, ¬ task.Touches c w.terrain q)
    (before : List Task) (task : Task) (after : List Task)
    (htasks : tasks = before ++ task :: after) : task.Spares c (runTasks c before w) q := by
  have halters := alters_runTasks hc hbare htidy before
  have hterrain := halters.terrain
  refine Task.spares hc (hterrain ▸ hbare) (halters.tidy htidy) (hterrain ▸ hq task ?_)
  rw [htasks]
  simp

/-- **Files that tasks spare are safe.** Whatever exports and cleanings are done with one
configuration, one after another, a file of the template or of the canvases or any other is
unchanged and in its place, if each of the tasks spares it in the workspace that it is done in. -/
theorem runTasks_keeps_files (hc : c.fault? = none) (htidy : w.top.Tidy) (tasks : List Task)
    (hfile : w.top.face? q = some (.file content))
    (hspares : ∀ before task after, tasks = before ++ task :: after →
      task.Spares c (runTasks c before w) q) :
    (runTasks c tasks w).top.face? q = some (.file content) := by
  induction tasks generalizing w with
  | nil => exact hfile
  | cons task rest ih =>
      have hkept := task_keeps hc htidy hfile (hspares [] task rest rfl)
      refine ih (task.keepsTidy c ⟨w, []⟩ htidy) hkept fun before other after heq => ?_
      exact hspares (task :: before) other after (by rw [heq]; rfl)

/-- A canvas and a template, and a scratch folder that is kept elsewhere. -/
def linkedScratch : Workspace where
  top := .folder [
    ("build", .folder []),
    ("canvases", .folder [("abc.json", .file homeCanvas.toUTF8)]),
    ("templates", .folder [("flutter", smallProject emptyRoutes)]),
    ("tmp-export", .link "build")]
  here := []

/-- The routes file of the template. -/
def templateRoutes : List String := ["templates", "flutter", "lib", "app", "routes.dart"]

theorem runTasks_keeps_files_linkedScratch :
    ({} : Config).fault? = none ∧ linkedScratch.top.Tidy
      ∧ linkedScratch.top.face? templateRoutes = some (.file emptyRoutes.toUTF8)
      ∧ (∀ before task after, [Task.exportRoom "abc", .clean] = before ++ task :: after →
        task.Spares {} (runTasks {} before linkedScratch) templateRoutes)
      ∧ (runTasks {} [.exportRoom "abc", .clean] linkedScratch).top.face? templateRoutes
          = some (.file emptyRoutes.toUTF8) := by
  have hconfig : ({} : Config).fault? = none := by decide +kernel
  have htidy : linkedScratch.top.Tidy := tidy_of_isTidy _ (by decide +kernel)
  have hfile : linkedScratch.top.face? templateRoutes = some (.file emptyRoutes.toUTF8) := rfl
  have haim : ∀ follow, linkedScratch.terrain.aim follow ({} : Config).scratchFolder
      = some (if follow then ["build"] else ["tmp-export"]) := by
    have hresolve : ∀ follow, ∃ spot, linkedScratch.resolve follow ({} : Config).scratchFolder
        = .ok spot ∧ spot.place = if follow then ["build"] else ["tmp-export"] := by
      delta Workspace.resolve
      rw [Workspace.walk_eq_walkBy]
      rintro (_ | _) <;> exact ⟨_, rfl, rfl⟩
    intro follow
    obtain ⟨spot, hspot, hplace⟩ := hresolve follow
    exact hplace ▸ Workspace.aim_of_resolve hspot
  have hplain : linkedScratch.terrain.IsPlain ({} : Config).scratchFolder :=
    Terrain.isPlain_of_isLinkless (haim true) fun entry hentry => by
      obtain rfl : Entry.folder [] = entry := Option.some.inj hentry
      rfl
  have hgrounded : ({} : Config).Grounded linkedScratch.terrain "abc" :=
    Config.grounded hconfig (by decide) hplain
  have hexport : (Task.exportRoom "abc").Spares {} linkedScratch templateRoutes := by
    intro pages _
    refine hgrounded.toSettled.spares htidy fun howns => ?_
    have htouches : (Task.exportRoom "abc").Touches {} linkedScratch.terrain templateRoutes :=
      ⟨by decide, howns⟩
    obtain ⟨place, hplace, hprefix⟩ := Task.exists_scratch htouches
    obtain rfl := Option.some.inj ((haim true).symm.trans hplace)
    exact absurd hprefix (by decide)
  have hclean : Task.clean.Spares {} (runTasks {} [.exportRoom "abc"] linkedScratch)
      templateRoutes := by
    -- The export leaves the link, so there is no folder that the scratch path ends at.
    intro _ place children hfolder
    have hterrain : (runTasks {} [.exportRoom "abc"] linkedScratch).terrain
        = linkedScratch.terrain := (alters_exportTask hconfig hplain htidy "abc").terrain
    have hplace := Workspace.aim_of_resolve hfolder
    rw [hterrain, haim false] at hplace
    obtain rfl : ["tmp-export"] = place := Option.some.inj hplace
    have hthere := Workspace.holds_of_walk (Workspace.walk_of_resolve hfolder)
    have hnone : (runTasks {} [.exportRoom "abc"] linkedScratch).terrain.links ["tmp-export"]
        = none := by
      show Workspace.link? _ _ = none
      rw [Workspace.link?, face?_eq_folder_iff.mpr ⟨children, hthere⟩]
    rw [hterrain] at hnone
    cases hnone
  have hspares : ∀ before task after, [Task.exportRoom "abc", .clean] = before ++ task :: after →
      task.Spares {} (runTasks {} before linkedScratch) templateRoutes := by
    intro before task after heq
    rcases before with _ | ⟨first, _ | ⟨second, more⟩⟩
    · obtain ⟨rfl, -⟩ := List.cons.inj heq
      exact hexport
    · obtain ⟨hfirst, hrest⟩ := List.cons.inj heq
      obtain ⟨rfl, -⟩ := List.cons.inj hrest
      exact hfirst ▸ hclean
    · simp at heq
  exact ⟨hconfig, htidy, hfile, hspares, runTasks_keeps_files hconfig htidy _ hfile hspares⟩

/-- A configuration in which the canvases are in the scratch folder. -/
def overlapping : Config := { scratch := "canvases" }

/-- The canvases and nothing else. -/
def onlyCanvases : Workspace where
  top := .folder [("canvases", .folder [("abc.json", .file "[]".toUTF8)])]
  here := []

/-- Cleaning takes the canvases along if they are in the scratch folder. -/
theorem runTasks_overlapping :
    overlapping.fault? = none ∧ onlyCanvases.top.Tidy
      ∧ onlyCanvases.terrain.aim true overlapping.canvasesFolder = some ["canvases"]
      ∧ onlyCanvases.top.face? ["canvases", "abc.json"] = some (.file "[]".toUTF8)
      ∧ (runTasks overlapping [.clean] onlyCanvases).top.face? ["canvases", "abc.json"] = none := by
  refine ⟨by decide +kernel, tidy_of_isTidy _ (by decide +kernel), ?_, rfl, ?_⟩
  · exact Terrain.aim_name (by decide) (by decide)
  · show ((cleanWith overlapping).leaves ⟨onlyCanvases, []⟩).top.face? _ = none
    rw [workspace_cleanWith]
    delta removeTree removeFolder FileAction.resolve Workspace.exists? Workspace.entry?
      Workspace.isLink Workspace.resolve
    rw [Workspace.walk_eq_walkBy]
    decide +kernel

/-- The routes file of the template once it has been patched without pages. -/
def importedRoutes : String :=
  "import 'package:flutter/material.dart';\n\n"
    ++ "final Map<String, WidgetBuilder> appRoutes = \x7b\n\x7d;\n"

/-- A canvas, a template, and a scratch folder that holds these things beside a link from the place
of the room's unfinished archive to the canvas. -/
def linkedPartial (canvas : ByteArray) (scratch : List (String × Entry)) : Workspace where
  top := .folder [
    ("canvases", .folder [("abc.json", .file canvas)]),
    ("templates", .folder [("flutter", smallProject importedRoutes)]),
    ("tmp-export", .folder (scratch ++ [("flutter-abc.zip.partial", .link "../canvases/abc.json")]))]
  here := []

/-- The project is staged, and the unfinished archive has been opened, in the place of the canvas. -/
def openedCanvas : Workspace := linkedPartial .empty [("flutter-abc", smallProject importedRoutes)]

/-- The entries of the archive. -/
def stagedEntries : List ArchiveEntry := [
  ⟨"flutter-abc/lib/", .empty⟩,
  ⟨"flutter-abc/lib/app/", .empty⟩,
  ⟨"flutter-abc/lib/app/routes.dart", importedRoutes.toUTF8⟩]

theorem runOn_stage_linkedPartial :
    (stageTemplate "templates/flutter" "tmp-export/flutter-abc").runOn
        (linkedPartial "[]".toUTF8 [])
      = (.ok (), linkedPartial "[]".toUTF8 [("flutter-abc", smallProject importedRoutes)]) := by
  have hcheck : (checkTemplate "templates/flutter").endsIn (linkedPartial "[]".toUTF8 []) ()
      (linkedPartial "[]".toUTF8 []) = true := by
    delta checkTemplate Workspace.isFolder Workspace.entry? Workspace.resolve
    rw [Workspace.walk_eq_walkBy]
    decide +kernel
  have hclear : (clearStaging "tmp-export/flutter-abc").endsIn (linkedPartial "[]".toUTF8 []) ()
      (linkedPartial "[]".toUTF8 []) = true := by
    delta clearStaging removeTree removeFolder FileAction.resolve Workspace.exists? Workspace.entry?
      Workspace.isLink Workspace.resolve
    rw [Workspace.walk_eq_walkBy]
    decide +kernel
  have hmake : (onPath "tmp-export/flutter-abc" (makeFolders "tmp-export/flutter-abc")).endsIn
      (linkedPartial "[]".toUTF8 []) () (linkedPartial "[]".toUTF8 [("flutter-abc", .folder [])])
      = true := by
    delta makeFolders makeFirst makeFirst._f makeFolder FileAction.resolve Workspace.isFolder
      Workspace.entry? Workspace.resolve
    rw [Workspace.walk_eq_walkBy]
    decide +kernel
  have hlist : ((listFolder "templates/flutter").runOn
      (linkedPartial "[]".toUTF8 [("flutter-abc", .folder [])])).1 = .ok [("lib", .folder)] := by
    delta FileAction.listFolder FileAction.resolve Workspace.resolve
    rw [Workspace.walk_eq_walkBy]
    decide +kernel
  have hcopy : (visitFolder (copyItem "tmp-export/flutter-abc") 3 "templates/flutter" []
      [("lib", .folder)]).endsIn (linkedPartial "[]".toUTF8 [("flutter-abc", .folder [])])
      [(), (), ()] (linkedPartial "[]".toUTF8 [("flutter-abc", smallProject importedRoutes)])
      = true := by
    delta visitFolder visitFolder._f copyItem FileAction.listFolder FileAction.copyFile readBytes
      writeBytes makeFolders makeFirst makeFirst._f makeFolder FileAction.resolve
      Workspace.isFolder Workspace.isSame Workspace.entry? Workspace.resolve
    rw [Workspace.walk_eq_walkBy]
    decide +kernel
  have htree := visitTree_of_visitFolder (by decide) hlist (runOn_of_endsIn hcopy)
  rw [stageTemplate_eq]
  refine runOn_bind_of_ok (runOn_of_endsIn hcheck) (runOn_bind_of_ok (runOn_of_endsIn hclear) ?_)
  exact runOn_bind_of_ok (runOn_of_endsIn hmake) (runOn_bind_of_ok htree rfl)

/-- The archive is completed, in the place of the canvas. -/
def completedCanvas : Except ExportError Unit × Workspace :=
  (onPath "tmp-export/flutter-abc.zip.partial" (writeBytes "tmp-export/flutter-abc.zip.partial"
    (Archive.write (⟨"flutter-abc/", .empty⟩ :: stagedEntries)))).runOn openedCanvas

theorem runOn_compress_linkedPartial :
    (compress "tmp-export/flutter-abc" "tmp-export/flutter-abc.zip.partial" "flutter-abc" 9).runOn
        (linkedPartial "[]".toUTF8 [("flutter-abc", smallProject importedRoutes)])
      = (.ok (), completedCanvas.2) := by
  have hfirst : (onPath "tmp-export/flutter-abc.zip.partial"
      (writeBytes "tmp-export/flutter-abc.zip.partial" .empty)).endsIn
      (linkedPartial "[]".toUTF8 [("flutter-abc", smallProject importedRoutes)]) () openedCanvas
      = true := by
    delta writeBytes FileAction.resolve Workspace.resolve
    rw [Workspace.walk_eq_walkBy]
    decide +kernel
  have hlist : ((listFolder "tmp-export/flutter-abc").runOn openedCanvas).1
      = .ok [("lib", .folder)] := by
    delta FileAction.listFolder FileAction.resolve Workspace.resolve
    rw [Workspace.walk_eq_walkBy]
    decide +kernel
  have hentries : (visitFolder (archiveEntry "flutter-abc" "tmp-export/flutter-abc.zip.partial" 9) 3
      "tmp-export/flutter-abc" [] [("lib", .folder)]).endsIn openedCanvas stagedEntries openedCanvas
      = true := by
    delta visitFolder visitFolder._f archiveEntry FileAction.listFolder readBytes
      FileAction.resolve Workspace.resolve
    rw [Workspace.walk_eq_walkBy]
    decide +kernel
  have htree := visitTree_of_visitFolder (by decide) hlist (runOn_of_endsIn hentries)
  have hcompleted : completedCanvas.1 = .ok () := by
    delta completedCanvas writeBytes FileAction.resolve Workspace.resolve
    rw [Workspace.walk_eq_walkBy]
    decide +kernel
  exact runOn_bind_of_ok (runOn_of_endsIn hfirst)
    (runOn_bind_of_ok htree (Prod.ext hcompleted rfl))

/-- What the export of the room leaves: the archive takes the place that it is meant for, and the
staging folder is removed. -/
def exportedCanvas : Workspace :=
  ((cleanUp "tmp-export/flutter-abc").runOn ((onPath "tmp-export/flutter-abc.zip"
    (renameFile "tmp-export/flutter-abc.zip.partial" "tmp-export/flutter-abc.zip")).runOn
      completedCanvas.2).2).2

theorem runOn_package_linkedPartial :
    (package {} "abc" []).runOn (linkedPartial "[]".toUTF8 [])
      = (onPath "tmp-export/flutter-abc.zip" (renameFile "tmp-export/flutter-abc.zip.partial"
          "tmp-export/flutter-abc.zip")).runOn completedCanvas.2 := by
  have hnames : ({} : Config).templateFolder = "templates/flutter"
      ∧ ({} : Config).stagingFolder "abc" = "tmp-export/flutter-abc"
      ∧ ({} : Config).archivePath "abc" = "tmp-export/flutter-abc.zip"
      ∧ ({} : Config).exportName "abc" = "flutter-abc" := by decide +kernel
  have hwrite : (writePages "tmp-export/flutter-abc" []).runOn
      (linkedPartial "[]".toUTF8 [("flutter-abc", smallProject importedRoutes)])
      = (.ok (), linkedPartial "[]".toUTF8 [("flutter-abc", smallProject importedRoutes)]) := rfl
  have hpatch : (patchRoutesFile "tmp-export/flutter-abc" []).endsIn
      (linkedPartial "[]".toUTF8 [("flutter-abc", smallProject importedRoutes)]) ()
      (linkedPartial "[]".toUTF8 [("flutter-abc", smallProject importedRoutes)]) = true := by
    delta patchRoutesFile readText writeText readBytes writeBytes FileAction.resolve
      Workspace.resolve
    rw [Workspace.walk_eq_walkBy]
    decide +kernel
  have hparent : (openParent "tmp-export/flutter-abc.zip").endsIn
      (linkedPartial "[]".toUTF8 [("flutter-abc", smallProject importedRoutes)]) ()
      (linkedPartial "[]".toUTF8 [("flutter-abc", smallProject importedRoutes)]) = true := by
    delta openParent makeFolders makeFirst makeFirst._f makeFolder FileAction.resolve
      Workspace.isFolder Workspace.entry? Workspace.resolve
    rw [Workspace.walk_eq_walkBy]
    decide +kernel
  have hpartial : partialPath "tmp-export/flutter-abc.zip" = "tmp-export/flutter-abc.zip.partial" :=
    by decide +kernel
  have hattempt : (attempt (compress "tmp-export/flutter-abc" "tmp-export/flutter-abc.zip.partial"
      "flutter-abc" 9) : ExportAction _).runOn
      (linkedPartial "[]".toUTF8 [("flutter-abc", smallProject importedRoutes)])
      = (.ok (.ok ()), completedCanvas.2) := by
    rw [runOn_attempt, runOn_compress_linkedPartial]
  have harchive : (writeArchive "tmp-export/flutter-abc" "tmp-export/flutter-abc.zip" "flutter-abc"
      9).runOn (linkedPartial "[]".toUTF8 [("flutter-abc", smallProject importedRoutes)])
      = (onPath "tmp-export/flutter-abc.zip" (renameFile "tmp-export/flutter-abc.zip.partial"
          "tmp-export/flutter-abc.zip")).runOn completedCanvas.2 := by
    rw [writeArchive_eq, hpartial, runOn_bind, runOn_of_endsIn hparent]
    dsimp only
    rw [runOn_bind, hattempt]
  obtain ⟨htemplate, hstaging, hplace, hname⟩ := hnames
  unfold package
  dsimp only
  rw [htemplate, hstaging, hplace, hname, runOn_bind, runOn_stage_linkedPartial]
  dsimp only
  rw [runOn_bind, hwrite]
  dsimp only
  rw [List.map_nil, runOn_bind, runOn_of_endsIn hpatch]
  exact harchive

theorem runOn_exportRoom_linkedPartial :
    ((exportRoom {} (Store.ofFolder ({} : Config).canvasesFolder) "abc").runOn
      (linkedPartial "[]".toUTF8 [])).2 = exportedCanvas := by
  have hstaging : ({} : Config).stagingFolder "abc" = "tmp-export/flutter-abc" := by decide +kernel
  have hpages : ((((Store.ofFolder ({} : Config).canvasesFolder).pages "abc").runOn
      (linkedPartial "[]".toUTF8 [])).1.toOption.any List.isEmpty) = true := by
    delta Store.pages Store.ofFolder readText readBytes FileAction.resolve Workspace.resolve
    rw [Workspace.walk_eq_walkBy]
    decide +kernel
  rw [runOn_exportRoom (Store.isLookup_ofFolder _)]
  cases hload : (((Store.ofFolder ({} : Config).canvasesFolder).pages "abc").runOn
      (linkedPartial "[]".toUTF8 [])).1 with
  | error e =>
      rw [hload] at hpages
      cases hpages
  | ok pages =>
      rw [hload] at hpages
      obtain rfl : pages = [] := List.isEmpty_iff.mp hpages
      have hnone : compilePages [] = [] := rfl
      dsimp only
      rw [runOnPages, conclude, hnone, runOn_package_linkedPartial, hstaging, exportedCanvas]

/-- Whether it is a file that begins with this byte. -/
def isFileFrom (byte : UInt8) : Option Face → Bool
  | some (.file content) => content.data.toList.head? == some byte
  | _ => false

/-- An export writes its archive into the canvas if there is a link to that in the place of the
unfinished archive. -/
theorem runTasks_linkedPartial :
    ({} : Config).fault? = none ∧ (linkedPartial "[]".toUTF8 []).top.Tidy
      ∧ (linkedPartial "[]".toUTF8 []).terrain.aim true ({} : Config).canvasesFolder = some ["canvases"]
      ∧ (linkedPartial "[]".toUTF8 []).top.face? ["canvases", "abc.json"]
        = some (.file "[]".toUTF8)
      ∧ (runTasks {} [.exportRoom "abc"] (linkedPartial "[]".toUTF8 [])).top.face?
        ["canvases", "abc.json"] ≠ some (.file "[]".toUTF8) := by
  refine ⟨by decide +kernel, tidy_of_isTidy _ (by decide +kernel),
    Terrain.aim_name (by decide) (by decide), rfl, ?_⟩
  show (((Task.exportRoom "abc").run {}).runOn (linkedPartial "[]".toUTF8 [])).2.workspace.top.face? _
    ≠ _
  rw [workspace_exportTask, runOn_exportRoom_linkedPartial]
  -- An archive and the canvas begin with different bytes.
  have hbegins : isFileFrom 0x50 (exportedCanvas.top.face? ["canvases", "abc.json"]) = true := by
    delta exportedCanvas cleanUp removeTree removeFolder renameFile completedCanvas writeBytes
      FileAction.resolve Workspace.isLink Workspace.exists? Workspace.entry? Workspace.resolve
    rw [Workspace.walk_eq_walkBy]
    decide +kernel
  intro heq
  rw [heq] at hbegins
  exact absurd hbegins (by decide +kernel)

/-- Canvases are not safe from every sequence of tasks: one that is in the scratch folder goes with
it, and one that a link in the place of an unfinished archive leads to is written over. -/
theorem not_runTasks_keeps_files :
    (overlapping.fault? = none ∧ onlyCanvases.top.Tidy
      ∧ onlyCanvases.terrain.aim true overlapping.canvasesFolder = some ["canvases"]
      ∧ onlyCanvases.top.face? ["canvases", "abc.json"] = some (.file "[]".toUTF8)
      ∧ (runTasks overlapping [.clean] onlyCanvases).top.face? ["canvases", "abc.json"] = none)
    ∧ ({} : Config).fault? = none ∧ (linkedPartial "[]".toUTF8 []).top.Tidy
      ∧ (linkedPartial "[]".toUTF8 []).terrain.aim true ({} : Config).canvasesFolder = some ["canvases"]
      ∧ (linkedPartial "[]".toUTF8 []).top.face? ["canvases", "abc.json"]
        = some (.file "[]".toUTF8)
      ∧ (runTasks {} [.exportRoom "abc"] (linkedPartial "[]".toUTF8 [])).top.face?
        ["canvases", "abc.json"] ≠ some (.file "[]".toUTF8) :=
  ⟨runTasks_overlapping, runTasks_linkedPartial⟩

end Command

end CanvasFlutter
