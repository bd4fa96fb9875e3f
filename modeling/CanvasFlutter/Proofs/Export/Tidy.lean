import CanvasFlutter.Proofs.Export.Failure

namespace CanvasFlutter

/-!
# `CanvasFlutter.Proofs.Export.Tidy` — trees stay tidy

Names come into a tree by the paths of what is made there, so they are proper, and a folder lists
them in order. So whatever an export does to a tidy tree, and be it a failure, the tree stays tidy.

## Contents
- **Actions.** `FileAction.KeepsTidy`: of what is done one after the other.
- **Files.** `keepsTidy_renameFile` and others: one lemma for each operation that may move a link;
  the others alter a tree, and what alters a tree leaves it tidy.
- **Exports.** `keepsTidy_package`, `keepsTidy_exportRoom`.
-/

open Entry Package FileAction

/-! ## Actions -/

namespace FileAction

variable {ε δ α β : Type} {action : FileAction ε α} {w : Workspace}

/-- An action leaves a tidy tree if it is done to one, be it a failure. -/
def KeepsTidy (action : FileAction ε α) : Prop :=
  ∀ w, w.top.Tidy → (action.runOn w).2.top.Tidy

theorem keepsTidy_of_does
    (h : ∀ t, Does t (fun _ => True) (fun _ => True) action fun _ => True) : KeepsTidy action :=
  fun w htidy => ((h w.terrain).alters rfl htidy).tidy htidy

theorem keepsTidy_of_reads (h : ∀ w, (action.runOn w).2 = w) : KeepsTidy action := by
  intro w htidy
  rwa [h w]

theorem keepsTidy_throw (e : ε) : KeepsTidy (throw e : FileAction ε α) := fun _ htidy => htidy

theorem KeepsTidy.bind {next : α → FileAction ε β} (h : KeepsTidy action)
    (hnext : ∀ a, KeepsTidy (next a)) : KeepsTidy (action >>= next) := by
  intro w htidy
  have hfirst := h w htidy
  rw [runOn_bind]
  cases hrun : action.runOn w with
  | mk r between =>
      rw [hrun] at hfirst
      cases r with
      | ok a => exact hnext a between hfirst
      | error e => exact hfirst

theorem KeepsTidy.mapError (h : KeepsTidy action) (f : ε → δ) :
    KeepsTidy (action.mapError f) := by
  intro w htidy
  rw [runOn_mapError]
  exact h w htidy

theorem KeepsTidy.attempt (h : KeepsTidy action) :
    KeepsTidy (attempt action : FileAction δ (Except ε α)) := by
  intro w htidy
  rw [runOn_attempt]
  exact h w htidy

/-! ## Files -/

theorem keepsTidy_eraseAt (place : List String) : KeepsTidy (eraseAt place) := by
  intro w htidy
  rcases eraseAt_cases (Prod.mk.eta.symm : (eraseAt place).runOn w = _) with
    ⟨hsame, -⟩ | ⟨-, front, name, -, herased⟩
  · rwa [hsame]
  · rw [herased]
    exact htidy.erase front name

theorem keepsTidy_putAt {place : List String} {entry : Entry} (hentry : entry.Tidy)
    (hname : ∀ front name, place = front ++ [name] → ProperName name) :
    KeepsTidy (putAt place entry) := by
  intro w htidy
  rcases List.eq_nil_or_concat place with rfl | ⟨front, name, rfl⟩
  · exact htidy
  · rw [List.concat_eq_append, runOn_putAt]
    exact htidy.put (hname front name (by simp)) hentry

theorem keepsTidy_removeFile (path : String) : KeepsTidy (removeFile path) := by
  intro w htidy
  rcases removeFile_cases (Prod.mk.eta.symm : (removeFile path).runOn w = _) with
    hsame | ⟨front, name, entry, -, -, herased⟩
  · rwa [hsame]
  · rw [herased]
    exact htidy.erase front name

theorem keepsTidy_removeTree (path : String) : KeepsTidy (removeTree path) :=
  fun _ htidy => tidy_removeTree htidy Prod.mk.eta.symm

/-- What is moved keeps what is in it, and its new name is proper. -/
theorem keepsTidy_renameFile (source target : String) : KeepsTidy (renameFile source target) := by
  intro w htidy
  rw [renameFile, runOn_bind, runOn_resolve]
  cases hsource : w.resolve false source with
  | error fault => exact htidy
  | ok start =>
      cases start with
      | free place name asFolder => exact htidy
      | taken origin entry =>
          have hentry : entry.Tidy :=
            htidy.entry (Workspace.holds_of_walk (Workspace.walk_of_resolve hsource))
          simp only
          rw [runOn_bind, runOn_resolve]
          cases htarget : w.resolve false target with
          | error fault => exact htidy
          | ok spot =>
              -- Both a file and a link in the place of the target make way.
              have hplaced : ∀ place old, spot = .taken place old → old.face ≠ .folder →
                  KeepsTidy (do eraseAt origin; putAt place entry) := by
                rintro place old rfl hold
                refine (keepsTidy_eraseAt origin).bind fun _ => keepsTidy_putAt hentry ?_
                rintro front name rfl
                refine (FileAction.target_of_resolve htidy htarget rfl ?_).1
                intro q children heq
                obtain ⟨-, rfl⟩ := Spot.taken.inj heq
                exact hold rfl
              rcases spot with ⟨place, content | link | children⟩ | ⟨place, name, _ | _⟩
              · simp only
                split
                · exact htidy
                · exact hplaced place _ rfl (by simp [face]) w htidy
              · simp only
                split
                · exact htidy
                · exact hplaced place _ rfl (by simp [face]) w htidy
              · exact htidy
              · have hname := Workspace.properName_of_resolve htarget
                have hput : KeepsTidy (ε := FileFault) (change (Entry.put place name entry)) :=
                  fun _ h => h.put hname hentry
                exact ((keepsTidy_eraseAt origin).bind fun _ => hput) w htidy
              · exact htidy

end FileAction

/-! ## Exports -/

namespace Package

theorem keepsTidy_onPath {α : Type} {action : FileAction FileFault α} (h : KeepsTidy action)
    (path : String) : KeepsTidy (onPath path action) := h.mapError _

theorem keepsTidy_clearStaging (staging : String) : KeepsTidy (clearStaging staging) := by
  refine (keepsTidy_of_reads fun _ => rfl).bind fun found => ?_
  cases found with
  | true => exact keepsTidy_onPath (keepsTidy_removeTree staging) staging
  | false => exact keepsTidy_of_reads fun _ => rfl

theorem keepsTidy_fillStaging (template staging : String) :
    KeepsTidy (fillStaging template staging) := by
  refine keepsTidy_of_does fun t => ?_
  have hmake : ∀ path, Does t (fun _ => True) (fun _ => True) (onPath path (makeFolders path))
      fun _ => True := fun path => does_onPath (does_makeFolders fun _ _ => .inl trivial) path
  have hcopy : ∀ path target, Does t (fun _ => True) (fun _ => True)
      (onPath target (copyFile path target)) fun _ => True := fun path target =>
    does_onPath (does_copyFile fun _ _ => trivial) target
  refine (hmake staging).bind fun _ _ => ?_
  refine (does_visitTree (fun path names kind _ _ => ?_) template).bind fun _ _ => does_pure trivial
  cases kind with
  | folder => exact hmake _
  | file => exact hcopy path _
  | link => exact hcopy path _

theorem does_openParent_anywhere (t : Terrain) (path : String) :
    Does t (fun _ => True) (fun _ => True) (openParent path) fun _ => True :=
  does_openParent fun _ _ _ _ => .inl trivial

theorem keepsTidy_writePages (staging : String) (pages : List GeneratedPage) :
    KeepsTidy (writePages staging pages) := by
  refine keepsTidy_of_does fun t => does_forM fun page _ => ?_
  rw [writePage_eq]
  exact (does_openParent_anywhere t _).bind fun _ _ =>
    does_onPath (does_writeText _ fun _ _ => trivial) _

theorem keepsTidy_patchRoutesFile (staging : String) (routes : List Route) :
    KeepsTidy (patchRoutesFile staging routes) := by
  refine keepsTidy_of_does fun t => ?_
  refine ((does_of_reads (reads_readText _)).mapError _).bind fun existing _ => ?_
  dsimp only
  split
  · exact does_onPath (does_writeText _ fun _ _ => trivial) _
  · exact does_throw _

theorem keepsTidy_writeArchive (staging archive folder : String) (level : Int) :
    KeepsTidy (writeArchive staging archive folder level) := by
  have hopen : KeepsTidy (openParent archive) :=
    keepsTidy_of_does fun t => does_openParent_anywhere t archive
  have hcompress : KeepsTidy (compress staging (partialPath archive) folder level) :=
    keepsTidy_of_does fun _ => does_compress _ folder level fun _ _ => trivial
  rw [writeArchive_eq]
  refine hopen.bind fun _ => hcompress.attempt.bind fun result => ?_
  cases result with
  | ok _ => exact keepsTidy_onPath (keepsTidy_renameFile _ _) archive
  | error e => exact (keepsTidy_removeFile _).attempt.bind fun _ => keepsTidy_throw e

theorem keepsTidy_package (c : Config) (room : String) (pages : List GeneratedPage) :
    KeepsTidy (package c room pages) := by
  have hcheck : KeepsTidy (checkTemplate c.templateFolder) :=
    keepsTidy_of_reads fun _ => (checkTemplate_cases Prod.mk.eta.symm).1
  rw [package_eq]
  refine hcheck.bind fun _ => (keepsTidy_clearStaging _).bind fun _ => ?_
  refine (keepsTidy_fillStaging _ _).bind fun _ => (keepsTidy_writePages _ _).bind fun _ => ?_
  exact (keepsTidy_patchRoutesFile _ _).bind fun _ => keepsTidy_writeArchive _ _ _ _

end Package

theorem keepsTidy_cleanUp (staging : String) : KeepsTidy (cleanUp staging) := by
  refine (keepsTidy_of_reads fun _ => rfl).bind fun found => ?_
  cases found with
  | true =>
      refine (keepsTidy_removeTree staging).attempt.bind fun _ => ?_
      exact keepsTidy_of_reads fun _ => rfl
  | false => exact keepsTidy_of_reads fun _ => rfl

/-- **An export leaves a tidy tree**, whatever becomes of it. -/
theorem keepsTidy_exportRoom (c : Config) {store : Store} (hstore : store.IsLookup)
    (room : String) : KeepsTidy (exportRoom c store room) := by
  refine (keepsTidy_of_reads (store.reads_pages hstore room)).bind fun pages => ?_
  refine (keepsTidy_package c room (compilePages pages)).attempt.bind fun result => ?_
  refine (keepsTidy_cleanUp _).bind fun _ => ?_
  cases result with
  | ok _ => exact keepsTidy_of_reads fun _ => rfl
  | error e => exact keepsTidy_throw e

end CanvasFlutter
