import CanvasFlutter.Command.Run
import CanvasFlutter.Proofs.Export.Confined
import CanvasFlutter.Proofs.Workspace.Evaluate

namespace CanvasFlutter

/-!
# `CanvasFlutter.Proofs.Command.Effect` — what commands do to a workspace

A command reads its configuration, does one thing to the workspace and prints. So what it leaves
behind is what that one thing leaves behind.

## Contents
- **Actions.** `CommandAction.Reads`: nothing happens to the workspace.
- **Commands.** `workspace_exportWith`, `workspace_cleanWith`.
- **Confinement.** `exportOnce_confined`: an export touches only what belongs to its room.
-/

open Entry FileAction

/-! ## Actions -/

namespace CommandAction

variable {α β ε : Type} {action : CommandAction α}

/-- The workspace after an action in a session. -/
def leaves (action : CommandAction α) (s : Session) : Workspace := (action.run.run s).2.workspace

theorem leaves_bind (next : α → CommandAction β) (s : Session) :
    (action >>= next).leaves s = match action.run.run s with
      | (.ok a, s') => (next a).leaves s'
      | (.error _, s') => s'.workspace := by
  simp only [leaves, ExceptT.run_bind, StateT.run_bind]
  generalize StateT.run (ExceptT.run action) s = result
  obtain ⟨_ | a, s'⟩ := result <;> rfl

/-- Nothing happens to the workspace. -/
def Reads (action : CommandAction α) : Prop := ∀ s, action.leaves s = s.workspace

theorem reads_pure (a : α) : Reads (pure a : CommandAction α) := fun _ => rfl

theorem reads_print (pieces : List Output) : (print pieces).Reads := fun _ => rfl

theorem run_onFiles (cause : ε → CommandError) (files : FileAction ε α) (s : Session) :
    (onFiles cause files).run.run s = ((files.runOn s.workspace).1.mapError cause,
      { s with workspace := (files.runOn s.workspace).2 }) := by
  unfold onFiles
  rw [ExceptT.run_mk, StateT.run]
  generalize files.runOn s.workspace = result
  obtain ⟨_ | a, w⟩ := result <;> rfl

theorem leaves_onFiles (cause : ε → CommandError) (files : FileAction ε α) (s : Session) :
    (onFiles cause files).leaves s = (files.runOn s.workspace).2 := by
  rw [leaves, run_onFiles]

theorem reads_onFiles {files : FileAction ε α} (h : ∀ w, (files.runOn w).2 = w)
    (cause : ε → CommandError) : (onFiles cause files).Reads := fun s =>
  (leaves_onFiles cause files s).trans (h s.workspace)

/-- What is read afterwards changes nothing. -/
theorem leaves_bind_of_reads {next : α → CommandAction β} (h : ∀ a, (next a).Reads) (s : Session) :
    (action >>= next).leaves s = action.leaves s := by
  rw [leaves_bind, leaves]
  generalize StateT.run (ExceptT.run action) s = result
  obtain ⟨_ | a, s'⟩ := result
  · rfl
  · exact h a s'

theorem Reads.bind {next : α → CommandAction β} (h : action.Reads) (hnext : ∀ a, (next a).Reads) :
    (action >>= next).Reads := fun s => (leaves_bind_of_reads hnext s).trans (h s)

end CommandAction

namespace Command

open CommandAction

/-! ## Commands -/

theorem workspace_exportWith (config : Config) (room : String) (s : Session) :
    (exportWith config room).leaves s
      = ((exportRoom config (Store.ofFolder config.canvasesFolder) room).runOn s.workspace).2 := by
  unfold exportWith
  rw [leaves_bind_of_reads, leaves_onFiles]
  intro report
  refine Reads.bind ?_ fun digest => reads_print _
  exact (reads_onFiles (reads_readBytes _) _).bind fun content => reads_pure _

theorem workspace_cleanWith (config : Config) (s : Session) :
    (cleanWith config).leaves s
      = if s.workspace.exists? config.scratchFolder then
          ((removeTree config.scratchFolder).runOn s.workspace).2
        else s.workspace := by
  unfold cleanWith
  rw [leaves_bind]
  show CommandAction.leaves (if s.workspace.exists? config.scratchFolder = true then _ else _) s = _
  split
  · rw [leaves_bind_of_reads, leaves_onFiles]
    exact fun _ => (reads_print _).bind fun _ => reads_print _
  · rfl

theorem reads_load (path : String) (w : Workspace) : ((Config.load path).runOn w).2 = w := by
  have hreads := reads_readText path w
  unfold Config.load
  rw [runOn_bind, runOn_mapError]
  cases hread : (readText path).runOn w with
  | mk r between =>
      rw [hread] at hreads
      obtain rfl : between = w := hreads
      cases r with
      | error fault => rfl
      | ok text =>
          simp only [Except.mapError]
          cases Config.parse path text <;> rfl

theorem reads_loadOrDefault (path : Option String) (w : Workspace) :
    ((Config.loadOrDefault path).runOn w).2 = w := by
  cases path with
  | some path => exact reads_load path w
  | none =>
      unfold Config.loadOrDefault
      rw [runOn_bind, runOn_look]
      simp only
      split
      · exact reads_load _ w
      · rfl

/-- The export command does to the workspace what the export with its configuration does. -/
theorem workspace_exportOnce (room : String) (configPath : Option String) (w : Workspace) :
    ((exportOnce room configPath).runOn w).2.workspace
      = match ((Config.loadOrDefault configPath).runOn w).1 with
        | .ok c => ((exportRoom c (Store.ofFolder c.canvasesFolder) room).runOn w).2
        | .error _ => w := by
  have hreads := reads_loadOrDefault configPath w
  show (exportOnce room configPath).leaves ⟨w, []⟩ = _
  unfold exportOnce config
  rw [leaves_bind, run_onFiles]
  dsimp only
  rw [hreads]
  cases ((Config.loadOrDefault configPath).runOn w).1 with
  | ok c => exact workspace_exportWith c room ⟨w, []⟩
  | error e => rfl

/-! ## Confinement -/

theorem pages_of_not_isRoomCode {room : String} (h : isRoomCode room = false) (folder : String) :
    (Store.ofFolder folder).pages room = throw (.noCanvas room) := by
  have hstore : Store.ofFolder folder room = pure none := by
    unfold Store.ofFolder canvasPath?
    rw [h]
    rfl
  unfold Store.pages
  rw [hstore, pure_bind]
  rfl

theorem exportRoom_of_not_isRoomCode {room : String} (h : isRoomCode room = false) (c : Config)
    (folder : String) (w : Workspace) :
    ((exportRoom c (Store.ofFolder folder) room).runOn w).2 = w := by
  unfold exportRoom
  rw [pages_of_not_isRoomCode h]
  rfl

/-- Only a room with a code has a canvas. -/
theorem isRoomCode_of_pages {room folder : String} {w : Workspace} {pages : List Page}
    (h : (((Store.ofFolder folder).pages room).runOn w).1 = .ok pages) : isRoomCode room = true := by
  cases hroom : isRoomCode room with
  | true => rfl
  | false =>
      rw [pages_of_not_isRoomCode hroom] at h
      cases h

/-- **An export is confined to its scratch folder.** The command changes what belongs to the room's
export and makes the missing folders that lead to the scratch folder; everything else is as it
was, and links stay. For a text that is no room code nothing is touched at all. -/
theorem exportOnce_confined {w : Workspace} {room : String} {configPath : Option String}
    {c : Config} (htidy : w.top.Tidy)
    (hconfig : ((Config.loadOrDefault configPath).runOn w).1 = .ok c)
    (hplain : w.terrain.IsPlain c.scratchFolder) :
    w.Alters (c.Owns w.terrain room) (w.terrain.LeadsThrough c.scratchFolder)
        ((exportOnce room configPath).runOn w).2.workspace
      ∧ (isRoomCode room = false → ((exportOnce room configPath).runOn w).2.workspace = w) := by
  rw [workspace_exportOnce, hconfig]
  dsimp only
  have hnone : isRoomCode room = false →
      ((exportRoom c (Store.ofFolder c.canvasesFolder) room).runOn w).2 = w := fun h =>
    exportRoom_of_not_isRoomCode h c _ w
  refine ⟨?_, hnone⟩
  cases hroom : isRoomCode room with
  | false =>
      rw [hnone hroom]
      exact .refl _ _ _
  | true =>
      have hfault := Config.fault?_of_loadOrDefault (Prod.ext hconfig rfl)
      have hgrounded := Config.grounded hfault (isRoomText_of_isRoomCode hroom) hplain
      exact (hgrounded.does_exportRoom (Store.isLookup_ofFolder _)).alters rfl htidy

/-- A canvas, and a project as a template in which a link leads out of the workspace. -/
def linkedTemplate : Workspace where
  top := .folder [
    ("canvases", .folder [("abc.json", .file homeCanvas.toUTF8)]),
    ("templates", .folder [("flutter", .folder [
      ("docs", .link "/etc"),
      ("lib", .folder [("app", .folder [("routes.dart", .file emptyRoutes.toUTF8)])])])])]
  here := []

theorem exportOnce_confined_linkedTemplate :
    linkedTemplate.top.Tidy
      ∧ ((Config.loadOrDefault none).runOn linkedTemplate).1 = .ok {}
      ∧ linkedTemplate.terrain.IsPlain ({} : Config).scratchFolder
      ∧ linkedTemplate.Alters (({} : Config).Owns linkedTemplate.terrain "abc")
          (linkedTemplate.terrain.LeadsThrough ({} : Config).scratchFolder)
          ((exportOnce "abc" none).runOn linkedTemplate).2.workspace
      ∧ (isRoomCode "abc" = false →
          ((exportOnce "abc" none).runOn linkedTemplate).2.workspace = linkedTemplate) := by
  have htidy : linkedTemplate.top.Tidy := tidy_of_isTidy _ (by decide +kernel)
  have hconfig : ((Config.loadOrDefault none).runOn linkedTemplate).1 = .ok {} := by
    have hnone : linkedTemplate.exists? Config.fileName = false := by
      delta Workspace.exists? Workspace.entry? Workspace.resolve
      rw [Workspace.walk_eq_walkBy]
      decide +kernel
    unfold Config.loadOrDefault
    rw [runOn_bind, runOn_look]
    simp only [hnone]
    rfl
  have hplain : linkedTemplate.terrain.IsPlain ({} : Config).scratchFolder := by
    have haim : linkedTemplate.terrain.aim true "tmp-export" = some ["tmp-export"] :=
      Terrain.aim_name (by decide) (by decide)
    have habsent : linkedTemplate.top.get? ["tmp-export"] = none := by decide
    exact Terrain.isPlain_of_isLinkless haim (by simp [habsent])
  exact ⟨htidy, hconfig, hplain, exportOnce_confined htidy hconfig hplain⟩

end Command

end CanvasFlutter
