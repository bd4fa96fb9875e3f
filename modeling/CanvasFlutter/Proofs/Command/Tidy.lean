import CanvasFlutter.Command.Line
import CanvasFlutter.Proofs.Command.Effect
import CanvasFlutter.Proofs.Export.Tidy

namespace CanvasFlutter

/-!
# `CanvasFlutter.Proofs.Command.Tidy` — no command makes a mess

A command does one thing to the workspace after the other, and each of them leaves a tidy tree. So
does every command line, and so do command lines one after another: a tree that is tidy once stays
tidy.

## Contents
- **Actions.** `CommandAction.KeepsTidy`.
- **Commands.** `keepsTidy_init`, `keepsTidy_exportWith` and others.
- **Runs.** `tidy_runLine`, `tidy_runLines`.
-/

open FileAction (keepsTidy_of_does does_makeFolders does_writeText keepsTidy_removeTree)

/-! ## Actions -/

namespace CommandAction

variable {α β ε : Type} {action : CommandAction α}

/-- An action leaves a tidy tree if it is done to one, be it a failure. -/
def KeepsTidy (action : CommandAction α) : Prop :=
  ∀ s, s.workspace.top.Tidy → (action.leaves s).top.Tidy

theorem Reads.keepsTidy (h : action.Reads) : action.KeepsTidy := fun s htidy => by
  rwa [h s]

theorem keepsTidy_look (f : Workspace → α) : (look f).KeepsTidy := fun _ htidy => htidy

theorem keepsTidy_throw (e : CommandError) : KeepsTidy (throw e : CommandAction α) :=
  fun _ htidy => htidy

theorem KeepsTidy.bind {next : α → CommandAction β} (h : action.KeepsTidy)
    (hnext : ∀ a, (next a).KeepsTidy) : (action >>= next).KeepsTidy := by
  intro s htidy
  have hfirst := h s htidy
  rw [leaves] at hfirst
  rw [leaves_bind]
  generalize action.run.run s = result at hfirst ⊢
  obtain ⟨_ | a, s'⟩ := result
  · exact hfirst
  · exact hnext a s' hfirst

theorem KeepsTidy.attempt (h : action.KeepsTidy) : (attempt action).KeepsTidy := h

/-- A check before the rest does nothing to the tree. -/
theorem KeepsTidy.if_throw {p : Prop} [Decidable p] {e : CommandError}
    {next : Unit → CommandAction α} (h : (next ()).KeepsTidy) :
    (if p then throw e >>= next else next ()).KeepsTidy := by
  split
  · exact (keepsTidy_throw e).bind fun _ => h
  · exact h

theorem KeepsTidy.unless_throw {p : Prop} [Decidable p] {e : CommandError}
    {next : Unit → CommandAction α} (h : (next ()).KeepsTidy) :
    (if p then next () else throw e >>= next).KeepsTidy := by
  split
  · exact h
  · exact (keepsTidy_throw e).bind fun _ => h

theorem keepsTidy_onFiles {files : FileAction ε α} (h : FileAction.KeepsTidy files)
    (cause : ε → CommandError) : (onFiles cause files).KeepsTidy := fun s htidy => by
  rw [leaves_onFiles]
  exact h s.workspace htidy

theorem keepsTidy_forM {f : β → CommandAction Unit} (items : List β)
    (h : ∀ item, (f item).KeepsTidy) : (items.forM f).KeepsTidy := by
  induction items with
  | nil => exact fun _ htidy => htidy
  | cons item rest ih => exact (h item).bind fun _ => ih

end CommandAction

namespace Command

open CommandAction

/-! ## Commands -/

theorem keepsTidy_makeFolders (cause : FileFault → CommandError) (path : String) :
    (onFiles cause (FileAction.makeFolders path)).KeepsTidy :=
  keepsTidy_onFiles (keepsTidy_of_does fun _ => does_makeFolders fun _ _ => .inl trivial) cause

theorem keepsTidy_writeNew (shown path text : String) : (writeNew shown path text).KeepsTidy :=
  keepsTidy_onFiles (keepsTidy_of_does fun _ => does_writeText text fun _ _ => trivial) _

theorem keepsTidy_writeTemplateFile (folder : String) (file : String × String) :
    (writeTemplateFile folder file).KeepsTidy := by
  unfold writeTemplateFile
  dsimp only
  split
  · exact (keepsTidy_makeFolders _ _).bind fun _ => keepsTidy_writeNew _ _ _
  · exact keepsTidy_writeNew _ _ _

theorem keepsTidy_init (name : String) : (init name).KeepsTidy := by
  refine (keepsTidy_look _).bind fun found => KeepsTidy.if_throw ?_
  refine (keepsTidy_forM _ (keepsTidy_writeTemplateFile _)).bind fun _ => ?_
  refine (keepsTidy_makeFolders _ _).bind fun _ => (keepsTidy_writeNew _ _ _).bind fun _ => ?_
  refine (keepsTidy_writeNew _ _ _).bind fun _ => (keepsTidy_writeNew _ _ _).bind fun _ => ?_
  exact (reads_print _).keepsTidy

theorem keepsTidy_compile (path : String) (page : Option String) :
    (compile path page).KeepsTidy := by
  refine (keepsTidy_look _).bind fun found => KeepsTidy.unless_throw ?_
  have hread := reads_onFiles (FileAction.reads_readText path) (.step ("Failed to read " ++ path))
  refine hread.keepsTidy.bind fun content => ?_
  split
  · exact (reads_print _).keepsTidy
  · exact keepsTidy_throw _

theorem keepsTidy_config (path : Option String) : (config path).KeepsTidy :=
  (reads_onFiles (reads_loadOrDefault path) _).keepsTidy

theorem keepsTidy_exportWith (c : Config) (room : String) : (exportWith c room).KeepsTidy := by
  intro s htidy
  rw [workspace_exportWith]
  exact keepsTidy_exportRoom c (Store.isLookup_ofFolder _) room s.workspace htidy

theorem keepsTidy_watch (room : String) (path : Option String) : (watch room path).KeepsTidy := by
  refine (keepsTidy_config path).bind fun c => KeepsTidy.if_throw ?_
  refine (keepsTidy_exportWith c room).attempt.bind fun result => ?_
  have hlook : KeepsTidy (do
      unless ← look (·.exists? c.canvasesFolder) do
        throw (CommandError.unwatchable c.canvasesFolder)) := by
    refine (keepsTidy_look _).bind fun found => ?_
    cases found with
    | true => exact (reads_pure ()).keepsTidy
    | false => exact keepsTidy_throw _
  cases result with
  | error error => exact (reads_print _).keepsTidy.bind fun _ => hlook
  | ok _ => exact (reads_print _).keepsTidy.bind fun _ => hlook

theorem keepsTidy_exportAgain (c : Config) (room : String) : (exportAgain c room).KeepsTidy := by
  refine (reads_print _).keepsTidy.bind fun _ => (keepsTidy_exportWith c room).attempt.bind ?_
  rintro (error | _)
  · exact (reads_print _).keepsTidy
  · exact (reads_print _).keepsTidy

theorem keepsTidy_cleanWith (c : Config) : (cleanWith c).KeepsTidy := by
  intro s htidy
  rw [workspace_cleanWith]
  split
  · exact keepsTidy_removeTree _ s.workspace htidy
  · exact htidy

end Command

namespace CommandLine

open CommandAction Command

theorem keepsTidy_runRequest (request : Request) : (runRequest request).KeepsTidy := by
  cases request with
  | init name => exact keepsTidy_init name
  | exportRoom room path => exact (keepsTidy_config path).bind fun c => keepsTidy_exportWith c room
  | compile file page => exact keepsTidy_compile file page
  | watch room path => exact keepsTidy_watch room path
  | clean path => exact (keepsTidy_config path).bind keepsTidy_cleanWith
  | version => exact (reads_print _).keepsTidy
  | help => exact (reads_print _).keepsTidy

/-! ## Runs -/

/-- **A command line leaves a tidy tree**, whatever it asks for and whether it fails or not. -/
theorem tidy_runLine (args : List String) {w : Workspace} (h : w.top.Tidy) :
    (runLine args w).2.2.workspace.top.Tidy := by
  unfold runLine
  cases parse args with
  | none => exact h
  | some request =>
      have hrequest : ((runRequest request).runOn w).2.workspace.top.Tidy :=
        keepsTidy_runRequest request ⟨w, []⟩ h
      dsimp only
      generalize (runRequest request).runOn w = result at hrequest ⊢
      obtain ⟨_ | _, session⟩ := result <;> exact hrequest

/-- The workspace after command lines one after another. -/
def runLines (lines : List (List String)) (w : Workspace) : Workspace :=
  lines.foldl (fun w args => (runLine args w).2.2.workspace) w

/-- **A tree that is tidy once stays tidy**, whatever command lines are run. -/
theorem tidy_runLines (lines : List (List String)) {w : Workspace} (h : w.top.Tidy) :
    (runLines lines w).top.Tidy := by
  induction lines generalizing w with
  | nil => exact h
  | cons args rest ih => exact ih (tidy_runLine args h)

end CommandLine

end CanvasFlutter
