import CanvasFlutter.Proofs.Command.Effect
import CanvasFlutter.Proofs.Export.Success

namespace CanvasFlutter

/-!
# `CanvasFlutter.Proofs.Command.Fresh` — a new workspace can export every canvas

What a new workspace holds is known to the last file, so it is known that nothing is in the way of
an export: the configuration can be used, the template has a table of routes and no file where a
page goes, and there is no older export. The one thing that can be in the way is the workspace's
own name, when it leads through a place within the workspace.

## Contents
- **Beginning.** `IsFresh`; `Begun`: what has been made so far, `begun_of_init`.
- **Paths.** `exportPaths`: the paths of an export, which must not be too long.
- **Exports.** `export_of_init`.
-/

open Entry Package FileAction

/-! ## Beginning -/

/-- The folders of a new workspace and the one for its exports. -/
def Starter.folders : List String := ["templates", "canvases", "tmp-export"]

theorem proper_templateFiles : ∀ file ∈ Starter.templateFiles, ∀ n ∈ Path.parts file.1, ProperName n := by
  decide +kernel

/-- A name that leads to where nothing is, and not through what a workspace has there. -/
def IsFresh (w : Workspace) (name : String) : Prop :=
  ∃ place, w.terrain.aim true name = some place
    ∧ (∀ n more, w.top.face? (place ++ n :: more) = none)
    ∧ ∀ n ∈ Starter.folders, ∀ more, ¬ w.terrain.LeadsThrough name (place ++ n :: more)

/-- What has been made so far in the place that a name points at; nothing else is there but what
the name itself leads through. -/
structure Begun (t : Terrain) (name : String) (place : List String)
    (items : List (List String × Face)) (w : Workspace) : Prop where
  terrain : w.terrain = t
  tidy : w.top.Tidy
  made : ∀ item ∈ items, w.top.face? (place ++ item.1) = some item.2
  nothing : ∀ q, q ≠ [] → ¬ t.LeadsThrough name (place ++ q) →
    (∀ item ∈ items, ¬ q <+: item.1) → w.top.face? (place ++ q) = none

namespace Begun

variable {t : Terrain} {name path text : String} {place names : List String}
variable {items : List (List String × Face)} {w v w' : Workspace} {face : Face}

theorem next (h : Begun t name place items w)
    (halters : w.Alters (· = place ++ names)
      (fun q => t.LeadsThrough name q ∨ ∃ front, front <+: names ∧ q = place ++ front) w')
    (hself : w'.top.face? (place ++ names) = some face) (hnew : ∀ item ∈ items, item.1 ≠ names) :
    Begun t name place (items ++ [(names, face)]) w' := by
  refine ⟨halters.terrain.trans h.terrain, halters.tidy h.tidy, fun item hitem => ?_,
    fun q hq haside hmissing => ?_⟩
  · rcases List.mem_append.mp hitem with hold | hnewest
    · have hthere := h.made item hold
      rw [halters.face_of_ne_none (fun heq => hnew item hold (List.append_cancel_left heq))
        (by rw [hthere]; simp), hthere]
    · obtain rfl := List.mem_singleton.mp hnewest
      exact hself
  · have hnone := h.nothing q hq haside fun item hitem => hmissing item (by simp [hitem])
    have hout : ¬ q <+: names := hmissing (names, face) (by simp)
    have hne : place ++ q ≠ place ++ names := fun heq =>
      hout (List.append_cancel_left heq ▸ List.prefix_refl _)
    rcases halters.face _ hne with hsame | ⟨hway | ⟨front, hfront, heq⟩, -, -⟩
    · exact hsame.trans hnone
    · exact absurd hway haside
    · exact absurd (List.append_cancel_left heq ▸ hfront) hout

section

variable (hplain : t.IsPlain name) (haim : t.aim true name = some place)
variable (hpath : ∀ n ∈ Path.parts path, ProperName n)
include hplain haim hpath

theorem leadsThrough_join {q : List String} (hq : t.LeadsThrough (Path.join name path) q) :
    t.LeadsThrough name q ∨ ∃ front, front <+: Path.parts path ∧ q = place ++ front := by
  rcases hplain.leadsThrough_join hpath hq with hway | ⟨middle, front, hmiddle, hfront, -, rfl⟩
  · exact .inl hway
  · obtain rfl := Option.some.inj (haim.symm.trans hmiddle)
    exact .inr ⟨front, hfront, rfl⟩

variable (h : Begun t name place items w) (hnew : ∀ item ∈ items, item.1 ≠ Path.parts path)
include h hnew

/-- A folder that has been made. -/
theorem makeFolders
    (hrun : (FileAction.makeFolders (Path.join name path)).runOn w = (.ok (), w')) :
    Begun t name place (items ++ [(Path.parts path, .folder)]) w' := by
  have hdoes : Does t (· = place ++ Path.parts path) _ (FileAction.makeFolders (Path.join name path))
      fun _ => True :=
    does_makeFolders fun q hq => .inr (leadsThrough_join hplain haim hpath hq)
  have hne : path ≠ "" := by
    rintro rfl
    exact (hpath "" (by simp [Path.parts_empty])).ne_empty rfl
  refine h.next (hdoes w _ w' h.terrain h.tidy hrun).1 ?_ hnew
  refine face?_of_makeFolders h.tidy (Path.join_ne_empty _ hne) hrun ?_
  rw [h.terrain, hplain.aim_join hpath, haim, Option.map_some]

/-- A file that has been written, once the way to it has been made. -/
theorem writeText
    (hopen : w.Alters (fun _ => False) (t.LeadsThrough (Path.join name path)) v)
    (hrun : (FileAction.writeText (Path.join name path) text).runOn v = (.ok (), w')) :
    Begun t name place (items ++ [(Path.parts path, .file text.toUTF8)]) w' := by
  have haimed : t.aim true (Path.join name path) = some (place ++ Path.parts path) := by
    rw [hplain.aim_join hpath, haim, Option.map_some]
  have ht := hopen.terrain.trans h.terrain
  have hdoes : Does t (· = place ++ Path.parts path) (fun _ => False)
      (FileAction.writeText (Path.join name path) text) fun _ => True :=
    does_writeText text fun q hq => (Option.some.inj (haimed.symm.trans hq)).symm
  have hwritten := (hdoes v _ w' ht (hopen.tidy h.tidy) hrun).1
  refine h.next ?_ (face?_of_writeBytes hrun (ht ▸ haimed)) hnew
  refine (hopen.mono (fun _ h => h.elim) fun q hq => .inr ?_).trans
    (hwritten.mono (fun _ h => h) fun _ h => h.elim)
  exact leadsThrough_join hplain haim hpath hq

end

end Begun

namespace CommandAction

variable {α β ε : Type} {action : CommandAction α} {s s' : Session}

/-- A command fails in its first part, or it does that and then the rest. -/
theorem run_bind_cases {next : α → CommandAction β} {r : Except CommandError β}
    (h : (action >>= next).run.run s = (r, s')) :
    (∃ e, action.run.run s = (.error e, s') ∧ r = .error e)
      ∨ ∃ a between, action.run.run s = (.ok a, between) ∧ (next a).run.run between = (r, s') := by
  rw [ExceptT.run_bind, StateT.run_bind] at h
  cases hfirst : action.run.run s with
  | mk first between =>
      rw [hfirst] at h
      cases first with
      | error e =>
          obtain ⟨rfl, rfl⟩ := Prod.mk.inj h
          exact .inl ⟨e, rfl, rfl⟩
      | ok a => exact .inr ⟨a, between, rfl, h⟩

theorem run_bind_eq_ok {next : α → CommandAction β} {b : β}
    (h : (action >>= next).run.run s = (.ok b, s')) :
    ∃ a between, action.run.run s = (.ok a, between)
      ∧ (next a).run.run between = (.ok b, s') := by
  refine (run_bind_cases h).resolve_left ?_
  rintro ⟨e, -, hresult⟩
  cases hresult

theorem run_bind_of_error {next : α → CommandAction β} {e : CommandError}
    (h : action.run.run s = (.error e, s')) : (action >>= next).run.run s = (.error e, s') := by
  rw [ExceptT.run_bind, StateT.run_bind, h]
  rfl

theorem run_onFiles_eq_ok {cause : ε → CommandError} {files : FileAction ε α} {a : α}
    (h : (onFiles cause files).run.run s = (.ok a, s')) :
    files.runOn s.workspace = (.ok a, s'.workspace) := by
  rw [run_onFiles] at h
  obtain ⟨hresult, rfl⟩ := Prod.mk.inj h
  cases hfirst : (files.runOn s.workspace).1 with
  | error e =>
      rw [hfirst] at hresult
      cases hresult
  | ok b =>
      rw [hfirst] at hresult
      obtain rfl : b = a := Except.ok.inj hresult
      exact Prod.ext hfirst rfl

end CommandAction

namespace Command

open CommandAction

variable {t : Terrain} {name : String} {place : List String}
variable {items : List (List String × Face)} {w w' : Workspace} {s s' : Session}

/-- A file of the template project as an item of a new workspace. -/
def templateItem (file : String × String) : List String × Face :=
  (Path.parts ("templates/flutter/" ++ file.1), .file file.2.toUTF8)

theorem parts_templateFile (path : String) :
    Path.parts ("templates/flutter/" ++ path) = ["templates", "flutter"] ++ Path.parts path := by
  have hslash : "templates/flutter/" = "templates/flutter" ++ "/" := by decide
  have hfolder : Path.parts "templates/flutter" = ["templates", "flutter"] := by decide
  rw [hslash, Path.parts_append_slash, hfolder]

/-- All that a new workspace holds but the folders that hold it. -/
def starterItems : List (List String × Face) :=
  Starter.templateFiles.map templateItem ++ [(["canvases"], .folder),
    (["canvases", "demo.json"], .file Starter.demoCanvas.toUTF8),
    ([Config.fileName], .file Starter.configText.toUTF8),
    ([".gitignore"], .file Starter.ignoreText.toUTF8)]

/-- The folder that a file of the template is in, and all that lead to it. -/
def openTemplate (path : String) : CommandAction Unit :=
  match Path.parent? path with
  | some parent =>
      onFiles (.step "Failed to create template directories") (FileAction.makeFolders parent)
  | none => pure ()

theorem writeTemplateFile_eq (folder : String) (file : String × String) :
    writeTemplateFile folder file = (do
      openTemplate (Path.join folder file.1)
      writeNew (Path.join folder file.1) (Path.join folder file.1) file.2) := by
  unfold writeTemplateFile openTemplate
  dsimp only
  cases Path.parent? (Path.join folder file.1) with
  | some parent => rfl
  | none => rfl

/-- The path of a file of the template within the workspace. -/
theorem join_template (name : String) {path : String} (hpath : ∀ n ∈ Path.parts path, ProperName n) :
    Path.join (Path.join name "templates/flutter") path
      = Path.join name ("templates/flutter/" ++ path) := by
  have hslash : "templates/flutter/" = "templates/flutter" ++ "/" := by decide
  rw [Path.join_join (by decide) (Path.not_isAbsolute_of_proper hpath), hslash]

/-- Writing a file of the template makes the way to it and the file. -/
theorem begun_of_writeTemplateFile (hplain : t.IsPlain name) (haim : t.aim true name = some place)
    (h : Begun t name place items s.workspace) {file : String × String}
    (hfile : ∀ n ∈ Path.parts file.1, ProperName n)
    (hnew : ∀ item ∈ items, item.1 ≠ (templateItem file).1)
    (hrun : (writeTemplateFile (Path.join name "templates/flutter") file).run.run s
      = (.ok (), s')) :
    Begun t name place (items ++ [templateItem file]) s'.workspace := by
  have hproper : ∀ n ∈ Path.parts ("templates/flutter/" ++ file.1), ProperName n := by
    rw [parts_templateFile, List.forall_mem_append]
    exact ⟨by decide, hfile⟩
  rw [writeTemplateFile_eq, join_template name hfile] at hrun
  obtain ⟨_, between, hopen, hwrite⟩ := run_bind_eq_ok hrun
  refine Begun.writeText hplain haim hproper h hnew ?_ (run_onFiles_eq_ok hwrite)
  rw [openTemplate] at hopen
  cases hparent : Path.parent? (Path.join name ("templates/flutter/" ++ file.1)) with
  | none =>
      rw [hparent] at hopen
      obtain ⟨-, rfl⟩ := Prod.mk.inj hopen
      exact .refl _ _ _
  | some parent =>
      rw [hparent] at hopen
      have hdoes : Does t (fun _ => False) _ (FileAction.makeFolders parent) fun _ => True :=
        does_makeFolders fun q hq => .inr (Terrain.leadsThrough_parent hparent hq)
      exact (hdoes _ _ _ h.terrain h.tidy (run_onFiles_eq_ok hopen)).1

/-- Writing the files of the template one after another. -/
theorem begun_of_templateFiles (hplain : t.IsPlain name) (haim : t.aim true name = some place)
    {files : List (String × String)} (h : Begun t name place items s.workspace)
    (hfiles : ∀ file ∈ files, ∀ n ∈ Path.parts file.1, ProperName n)
    (hdistinct : (items ++ files.map templateItem).Pairwise (·.1 ≠ ·.1))
    (hrun : (files.forM (writeTemplateFile (Path.join name "templates/flutter"))).run.run s
      = (.ok (), s')) :
    Begun t name place (items ++ files.map templateItem) s'.workspace := by
  induction files generalizing items s with
  | nil =>
      obtain ⟨-, rfl⟩ := Prod.mk.inj hrun
      simpa using h
  | cons file rest ih =>
      rw [List.forM_eq_forM, List.forM_cons] at hrun
      obtain ⟨_, between, hfirst, hrest⟩ := run_bind_eq_ok hrun
      obtain ⟨hfile, hothers⟩ := List.forall_mem_cons.mp hfiles
      rw [List.map_cons, List.append_cons] at hdistinct ⊢
      refine ih (begun_of_writeTemplateFile hplain haim h hfile (fun item hitem => ?_) hfirst)
        hothers hdistinct hrest
      exact (List.pairwise_append.mp (List.pairwise_append.mp hdistinct).1).2.2 item hitem _ (by simp)

/-- What is done for a new workspace once its name is known to be free. -/
def fillWorkspace (name : String) : CommandAction Unit := do
  Starter.templateFiles.forM (writeTemplateFile (Path.join name "templates/flutter"))
  onFiles (.step "Failed to create canvases directory")
    (FileAction.makeFolders (Path.join name "canvases"))
  writeNew "canvases/demo.json" (Path.join name "canvases/demo.json") Starter.demoCanvas
  writeNew Config.fileName (Path.join name Config.fileName) Starter.configText
  writeNew ".gitignore" (Path.join name ".gitignore") Starter.ignoreText
  printLine ("     Created export workspace `" ++ name ++ "`")

/-- A new workspace is begun if its name leads to nothing. -/
theorem runOn_init (name : String) (w : Workspace) : (init name).runOn w
    = if w.exists? name then (.error (.alreadyThere name), ⟨w, []⟩) else (fillWorkspace name).runOn w := by
  have hlook : (look (·.exists? name) : CommandAction Bool).run.run ⟨w, []⟩
      = (.ok (w.exists? name), ⟨w, []⟩) := rfl
  unfold init CommandAction.runOn
  rw [ExceptT.run_bind, StateT.run_bind, hlook]
  cases w.exists? name with
  | true => rfl
  | false => rfl

theorem fillWorkspace_of_init (h : (init name).runOn w = (.ok (), s)) :
    (fillWorkspace name).run.run ⟨w, []⟩ = (.ok (), s) := by
  rw [runOn_init] at h
  split at h
  · cases congrArg Prod.fst h
  · exact h

/-- **What a new workspace holds**, and its name leads to it. -/
theorem begun_of_init (htidy : w.top.Tidy) (haim : w.terrain.aim true name = some place)
    (hnothing : ∀ n more, w.top.face? (place ++ n :: more) = none)
    (hinit : (init name).runOn w = (.ok (), s)) :
    Begun w.terrain name place starterItems s.workspace
      ∧ s.workspace.Leads (Path.wholeWay name) place := by
  have hplain : w.terrain.IsPlain name := by
    intro q hq n more
    obtain rfl := Option.some.inj (haim.symm.trans hq)
    show w.link? (place ++ n :: more) = none
    rw [Workspace.link?, hnothing]
  have hempty : Begun w.terrain name place [] w := by
    refine ⟨rfl, htidy, by simp, fun q hq _ _ => ?_⟩
    obtain ⟨n, more, rfl⟩ := List.exists_cons_of_ne_nil hq
    exact hnothing n more
  have hparts : Path.parts "canvases" = ["canvases"]
      ∧ Path.parts "canvases/demo.json" = ["canvases", "demo.json"]
      ∧ Path.parts Config.fileName = [Config.fileName]
      ∧ Path.parts ".gitignore" = [".gitignore"] := by decide +kernel
  obtain ⟨_, s₁, htemplate, hrun⟩ := run_bind_eq_ok (fillWorkspace_of_init hinit)
  obtain ⟨_, s₂, hcanvases, hrun⟩ := run_bind_eq_ok hrun
  obtain ⟨_, s₃, hdemo, hrun⟩ := run_bind_eq_ok hrun
  obtain ⟨_, s₄, hconfig, hrun⟩ := run_bind_eq_ok hrun
  obtain ⟨_, s₅, hignore, hprint⟩ := run_bind_eq_ok hrun
  have hsame : s.workspace = s₅.workspace := by
    obtain ⟨-, rfl⟩ := Prod.mk.inj hprint
    rfl
  rw [hsame]
  have h₁ := begun_of_templateFiles hplain haim hempty proper_templateFiles (by decide +kernel) htemplate
  have h₂ := Begun.makeFolders hplain haim (by decide +kernel) h₁ (by decide +kernel)
    (run_onFiles_eq_ok hcanvases)
  have h₃ := Begun.writeText hplain haim (by decide +kernel) h₂ (by decide +kernel) (.refl _ _ _)
    (run_onFiles_eq_ok hdemo)
  have h₄ := Begun.writeText hplain haim (by decide +kernel) h₃ (by decide +kernel) (.refl _ _ _)
    (run_onFiles_eq_ok hconfig)
  have h₅ := Begun.writeText hplain haim (by decide +kernel) h₄ (by decide +kernel) (.refl _ _ _)
    (run_onFiles_eq_ok hignore)
  refine ⟨?_, ?_⟩
  · rw [hparts.1, hparts.2.1, hparts.2.2.1, hparts.2.2.2] at h₅
    simpa [starterItems] using h₅
  · -- The last file that was written can be reached, so the name leads to a folder.
    obtain ⟨_, _, spot, hresolve, hspot, hstore⟩ :=
      exists_store_of_writeBytes (run_onFiles_eq_ok hignore)
    have hfound : s₅.workspace.resolve true (Path.join name ".gitignore") = .ok (.taken _ _) :=
      hstore ▸ Workspace.resolve_store hspot hresolve
    obtain ⟨q, hleads, hq⟩ := Workspace.exists_leads_of_join (by decide +kernel) hfound
    rw [h₅.terrain, haim] at hq
    obtain rfl := Option.some.inj hq
    exact hleads

end Command

/-! ## Paths -/

/-- The configuration of a new workspace with this name. -/
def Starter.config (name : String) : Config :=
  { baseFolder := (Path.parent? (Path.join name Config.fileName)).getD "" }

/-- The files of an export from a new workspace. -/
def exportFiles (pages : List Page) : List (List String) :=
  Starter.templateFiles.map (fun file => Path.parts file.1) ++ (planRoutes pages).map (·.fileNames)

/-- Where a canvas is stored in a new workspace. -/
def canvasFile (name room : String) : String := Path.join name ("canvases/" ++ (room ++ ".json"))

/-- The paths that storing a canvas in a new workspace and exporting it go through. -/
def exportPaths (name room : String) (pages : List Page) : List String :=
  let c := Starter.config name
  [canvasFile name room, Path.join name Config.fileName, Path.join c.canvasesFolder (room ++ ".json"),
    c.archivePath room, partialPath (c.archivePath room)]
  ++ Starter.templateFiles.map (fun file => Path.join c.templateFolder file.1)
  ++ (exportFiles pages).map fun names => Path.join (c.stagingFolder room) ("/".intercalate names)

theorem proper_exportFiles {pages : List Page} {f : List String} (hf : f ∈ exportFiles pages) :
    ∀ n ∈ f, ProperName n := by
  rcases List.mem_append.mp hf with htemplate | hpage
  · obtain ⟨file, hfile, rfl⟩ := List.mem_map.mp htemplate
    exact proper_templateFiles file hfile
  · obtain ⟨route, hroute, rfl⟩ := List.mem_map.mp hpage
    exact Route.proper_fileNames hroute

/-- No file of an export is where another one has a folder. -/
theorem apart_exportFiles {pages : List Page} {f g : List String} (hf : f ∈ exportFiles pages)
    (hg : g ∈ exportFiles pages) (hpre : f <+: g) : f = g := by
  have htemplates : ∀ file ∈ Starter.templateFiles, ¬ Path.parts file.1 <+: ["lib", "pages"]
      ∧ ¬ ["lib", "pages"] <+: Path.parts file.1
      ∧ ∀ other ∈ Starter.templateFiles, Path.parts file.1 <+: Path.parts other.1 →
        Path.parts file.1 = Path.parts other.1 := by decide
  rcases List.mem_append.mp hf with hf | hf <;> rcases List.mem_append.mp hg with hg | hg
  · obtain ⟨file, hfile, rfl⟩ := List.mem_map.mp hf
    obtain ⟨other, hother, rfl⟩ := List.mem_map.mp hg
    exact (htemplates file hfile).2.2 other hother hpre
  · obtain ⟨file, hfile, rfl⟩ := List.mem_map.mp hf
    obtain ⟨route, -, rfl⟩ := List.mem_map.mp hg
    have hpages : ["lib", "pages"] <+: route.fileNames := ⟨_, rfl⟩
    obtain ⟨habove, hbelow, -⟩ := htemplates file hfile
    exact ((List.prefix_or_prefix_of_prefix hpre hpages).elim habove hbelow).elim
  · obtain ⟨route, -, rfl⟩ := List.mem_map.mp hf
    obtain ⟨other, hother, rfl⟩ := List.mem_map.mp hg
    have hpages : ["lib", "pages"] <+: route.fileNames := ⟨_, rfl⟩
    exact absurd (hpages.trans hpre) (htemplates other hother).2.1
  · obtain ⟨route, -, rfl⟩ := List.mem_map.mp hf
    obtain ⟨other, -, rfl⟩ := List.mem_map.mp hg
    exact hpre.eq_of_length rfl

/-- What an export from a new workspace stages. -/
def exportLayout (pages : List Page) : Layout :=
  Layout.ofFiles (exportFiles pages)
    ⟨["pubspec.yaml"], List.mem_append_left _ (by decide +kernel), by simp⟩
    fun _ hf _ hg => apart_exportFiles hf hg

/-! ## Canvases -/

/-- White space begins no value. -/
theorem readNumber?_of_isWhite {c : Char} (h : Text.isWhite c = true) (rest : Text) :
    Json.readNumber? (c :: rest) = none := by
  have hsign : c ≠ '-' := by
    rintro rfl
    exact absurd h (by decide)
  have hzero : c ≠ '0' := by
    rintro rfl
    exact absurd h (by decide)
  have hdigit : c.isDigit = false := by
    rw [← Bool.not_eq_true]
    intro hdigit
    have hrange : 48 ≤ c.toNat ∧ c.toNat ≤ 57 := by
      rw [Char.isDigit, Bool.and_eq_true, decide_eq_true_iff, decide_eq_true_iff] at hdigit
      exact ⟨UInt32.le_iff_toNat_le.mp hdigit.1, UInt32.le_iff_toNat_le.mp hdigit.2⟩
    simp only [Text.isWhite, Bool.or_eq_true, Bool.and_eq_true, decide_eq_true_iff, beq_iff_eq] at h
    omega
  have hwhole : Json.readWhole? (c :: rest) = none := by
    rw [Json.readWhole?.eq_def]
    split
    · next heq => exact absurd (List.cons.inj heq).1 hzero
    · simp [Decimal.spanDigits, hdigit]
  rw [Json.readNumber?.eq_def]
  split
  next negative t heq =>
    split at heq
    · next heq' => exact absurd (List.cons.inj heq').1 hsign
    · obtain ⟨-, rfl⟩ := Prod.mk.inj heq
      rw [hwhole]
      rfl

/-- A text of nothing but white space is no canvas. -/
theorem parse?_of_blankString {text : String} (h : blankString text = true) :
    Json.parse? text = none := by
  have hwhite : ∀ c ∈ Json.skipBlanks text.toList, Text.isWhite c = true := fun c hc =>
    List.all_eq_true.mp h c ((List.dropWhile_suffix _).subset hc)
  have hafter : ∀ {first c : Char} {word rest : Text}, Text.isWhite first = false →
      Text.isWhite c = true → Text.after? (first :: word) (c :: rest) = none := by
    intro first c word rest hfirst hc
    have hne : first ≠ c := by
      rintro rfl
      rw [hc] at hfirst
      cases hfirst
    simp [Text.after?, hne]
  have hvalue : Json.readValue? (text.toList.length + 1) Json.maxDepth text.toList = none := by
    rw [Json.readValue?.eq_def]
    dsimp only
    split
    · rfl
    · next heq => exact absurd (hwhite '"' (by simp [heq])) (by decide)
    · next heq => exact absurd (hwhite '[' (by simp [heq])) (by decide)
    · next heq => exact absurd (hwhite '{' (by simp [heq])) (by decide)
    · next c rest _ _ _ heq =>
        have hc := hwhite c (by simp [heq])
        rw [show "null".toList = ['n', 'u', 'l', 'l'] by decide, show "true".toList = ['t', 'r', 'u', 'e'] by decide,
          show "false".toList = ['f', 'a', 'l', 's', 'e'] by decide,
          hafter (by decide) hc, hafter (by decide) hc, hafter (by decide) hc,
          readNumber?_of_isWhite hc]
        rfl
  rw [Json.parse?]
  dsimp only
  rw [hvalue]
  rfl

/-- Canvases that can be read are not blank. -/
theorem loadPages_of_parsePages {text : String} {pages : List Page} (h : parsePages text = .ok pages)
    (room : String) : loadPages room (some text) = .ok pages := by
  cases hblank : blankString text with
  | false =>
      show (if blankString text then _ else parsePages text) = _
      rw [hblank]
      exact h
  | true =>
      rw [parsePages, parse?_of_blankString hblank] at h
      cases h

/-- The configuration file of a new workspace can be used. -/
theorem parse_configText (name : String) :
    Config.parse (Path.join name Config.fileName) Starter.configText = .ok (Starter.config name) := by
  have hconfig : (Toml.parse? Starter.configText).bind Config.ofToml? = some {} := by decide +kernel
  have hfault : ({} : Config).fault? = none := by decide +kernel
  rw [Config.parse, hconfig]
  dsimp only
  rw [hfault]
  rfl

/-- The routes of the template can be patched. -/
theorem exists_patchPages_routesText (pages : List Page) :
    ∃ patched, patchPages Starter.routesText.toList pages = .ok patched := by
  have htable : (RouteDocument.tableParts? (RouteDocument.parse Starter.routesText.toList).body).isSome
      = true := by decide +kernel
  obtain ⟨⟨front, inner, back⟩, hparts⟩ := Option.isSome_iff_exists.mp htable
  exact ⟨_, patchPages_eq_ok_iff.mpr ⟨front, inner, back, hparts, rfl⟩⟩

/-! ## Exports -/

namespace Command

variable {t : Terrain} {name room text : String} {place : List String} {pages : List Page}
variable {w w₁ : Workspace} {s : Session}

/-- Where an export from a new workspace takes place. -/
def freshBench (name : String) (place : List String) : Bench := ⟨Path.wholeWay name, place, ["tmp-export"]⟩

/-- The paths of the configuration begin as the name does. -/
theorem descends_base (name path : String) (hpath : ∀ n ∈ Path.parts path, ProperName n) :
    Path.Descends (Path.wholeWay name) (Path.parts path)
      (Path.join (Starter.config name).baseFolder path) := by
  have hfile : ProperName Config.fileName := by decide
  obtain ⟨parent, hparent, hway⟩ := Path.exists_parent_join hfile name
  have hbase : (Starter.config name).baseFolder = parent := by
    rw [Starter.config, hparent]
    rfl
  rw [hbase, ← hway]
  exact Path.descends_join path hpath parent

/-- The paths of an export from a new workspace fit. -/
theorem fits_of_usable (hroom : isRoomCode room = true)
    (hshort : ∀ path ∈ exportPaths name room pages, Path.IsUsable path) :
    Fits (freshBench name place) (Starter.config name) room (exportLayout pages) := by
  have hconfig : (Starter.config name).fault? = none := by
    have hdefault : ({} : Config).fault? = none := by decide
    exact hdefault
  have hparts : Path.parts "tmp-export" = ["tmp-export"] := by decide
  have hscratch := descends_base name "tmp-export" (by decide)
  rw [hparts] at hscratch
  have hstaged : ∀ f ∈ exportFiles pages,
      Path.IsUsable (Path.join ((Starter.config name).stagingFolder room) ("/".intercalate f)) :=
    fun f hf => hshort _ (List.mem_append_right _ (List.mem_map_of_mem hf))
  have hname : ProperName ((Starter.config name).exportName room ++ "") :=
    Config.properName_exportName hconfig (isRoomText_of_isRoomCode hroom) (by decide)
  rw [String.append_empty] at hname
  refine ⟨hconfig, isRoomText_of_isRoomCode hroom, hscratch, ?_, hshort _ (by simp [exportPaths]),
    hshort _ (by simp [exportPaths]), ?_⟩
  · have hfile := hstaged ["pubspec.yaml"] (List.mem_append_left _ (by decide))
    have hrelative : Path.isAbsolute ("/".intercalate ["pubspec.yaml"]) = false := by decide
    rw [Config.stagingFolder, Path.join_join_eq (by simpa [Path.parts_proper hname] using hname)
      hrelative] at hfile
    exact hfile.before_slash
  · exact usable_ofFiles (fun f hf => proper_exportFiles hf) hstaged

/-- What stands below the template of a new workspace is part of it. -/
theorem face_template (h : Begun t name place starterItems w)
    (haside : ∀ n ∈ Starter.folders, ∀ more, ¬ t.LeadsThrough name (place ++ n :: more))
    {q : List String} {face : Face}
    (hface : w.top.face? (place ++ (["templates", "flutter"] ++ q)) = some face) :
    ∃ file ∈ Starter.templateFiles, q <+: Path.parts file.1
      ∧ (q = Path.parts file.1 ∧ face = .file file.2.toUTF8
        ∨ q ≠ Path.parts file.1 ∧ face = .folder) := by
  by_cases hitems : ∀ item ∈ starterItems, ¬ ["templates", "flutter"] ++ q <+: item.1
  · have hnone := h.nothing (["templates", "flutter"] ++ q) (by simp)
      (haside "templates" (by simp [Starter.folders]) _) hitems
    rw [hnone] at hface
    cases hface
  · obtain ⟨item, hitem, hpre⟩ : ∃ item ∈ starterItems, ["templates", "flutter"] ++ q <+: item.1 := by
      simpa using hitems
    have htemplate : item ∈ Starter.templateFiles.map templateItem := by
      refine (List.mem_append.mp hitem).resolve_right fun hother => ?_
      have htop : ∀ other ∈ starterItems.drop 3, ¬ ["templates"] <+: other.1 := by decide
      exact htop item hother ((List.prefix_append ["templates"] ("flutter" :: q)).trans hpre)
    obtain ⟨file, hfile, rfl⟩ := List.mem_map.mp htemplate
    have hmade := h.made _ hitem
    rw [templateItem, parts_templateFile] at hpre hmade
    have hbelow := (List.prefix_append_right_inj _).mp hpre
    refine ⟨file, hfile, hbelow, ?_⟩
    by_cases heq : q = Path.parts file.1
    · rw [← heq, hface] at hmade
      exact .inl ⟨heq, Option.some.inj hmade⟩
    · obtain ⟨rest, hrest⟩ := hbelow
      obtain ⟨n, more, rfl⟩ := List.exists_cons_of_ne_nil (l := rest) (by rintro rfl; exact heq (by simpa using hrest))
      rw [← hrest, ← List.append_assoc, ← List.append_assoc] at hmade
      rw [← List.append_assoc, face?_of_below (by rw [hmade]; simp)] at hface
      exact .inr ⟨heq, (Option.some.inj hface).symm⟩

/-- The template of a new workspace is one that can be exported. -/
theorem exists_stock (h : Begun t name place starterItems w)
    (haside : ∀ n ∈ Starter.folders, ∀ more, ¬ t.LeadsThrough name (place ++ n :: more))
    (hshort : ∀ path ∈ exportPaths name room pages, Path.IsUsable path) :
    ∃ children, w.top.get? (place ++ ["templates", "flutter"]) = some (.folder children)
      ∧ (Entry.folder children).face? routesNames = some (.file Starter.routesText.toUTF8)
      ∧ Stock (freshBench name place) (Starter.config name) (exportLayout pages)
        ["templates", "flutter"] children := by
  have hmade := h.made (templateItem ("lib/app/routes.dart", Starter.routesText))
    (List.mem_append_left _ (List.mem_map_of_mem (by simp [Starter.templateFiles])))
  have hroutes : Path.parts "lib/app/routes.dart" = routesNames := by decide
  rw [templateItem, parts_templateFile, hroutes, ← List.append_assoc] at hmade
  have hfolder : w.top.face? (place ++ ["templates", "flutter"]) = some .folder := by
    have hthere : w.top.face? (place ++ ["templates", "flutter"] ++ "lib" :: ["app", "routes.dart"])
        ≠ none := by
      rw [show "lib" :: ["app", "routes.dart"] = routesNames from rfl, hmade]
      simp
    exact face?_of_below hthere
  obtain ⟨children, hchildren⟩ := face?_eq_folder_iff.mp hfolder
  have hfaces : ∀ q, (Entry.folder children).face? q
      = w.top.face? (place ++ (["templates", "flutter"] ++ q)) := by
    intro q
    rw [← List.append_assoc, face?, face?, get?_append, hchildren, Option.bind_some]
  have hparts : Path.parts "templates/flutter" = ["templates", "flutter"] := by decide
  have hdescends := descends_base name "templates/flutter" (by decide)
  rw [hparts] at hdescends
  have hfiles : ∀ file ∈ Starter.templateFiles,
      Path.IsUsable (Path.join (Starter.config name).templateFolder ("/".intercalate (Path.parts file.1))) := by
    have hsame : ∀ file ∈ Starter.templateFiles, "/".intercalate (Path.parts file.1) = file.1 := by
      decide
    intro file hfile
    rw [hsame file hfile]
    refine hshort _ (List.mem_append_left _ (List.mem_append_right _ ?_))
    exact List.mem_map_of_mem (f := fun file : String × String =>
      Path.join (Starter.config name).templateFolder file.1) hfile
  have hbeside : ¬ ["tmp-export"] <+: ["templates", "flutter"]
      ∧ ¬ ["templates", "flutter"] <+: ["tmp-export"] := by decide
  refine ⟨children, hchildren, ?_, hdescends, ?_, hbeside, h.tidy.entry hchildren,
    fun q entry hentry => ?_, fun q hq hthere => ?_⟩
  · rw [hfaces, ← List.append_assoc]
    exact hmade
  · have hfile := hfiles ("pubspec.yaml", Starter.pubspecText) (by simp [Starter.templateFiles])
    have hrelative : Path.isAbsolute ("/".intercalate (Path.parts "pubspec.yaml")) = false := by
      decide
    rw [Config.templateFolder] at hfile ⊢
    rw [show (Starter.config name).template = "templates/flutter" from rfl] at hfile ⊢
    rw [Path.join_join_eq (by rw [hparts]; decide) hrelative] at hfile
    exact hfile.before_slash
  · have hface := hfaces q
    rw [face?, hentry, Option.map_some] at hface
    obtain ⟨file, hfile, hpre, ⟨rfl, hkind⟩ | ⟨hne, hkind⟩⟩ := face_template h haside hface.symm
    · rw [hkind]
      exact List.mem_append_left _ (List.mem_map_of_mem (f := fun file : String × String =>
        Path.parts file.1) hfile)
    · rw [hkind]
      exact ⟨_, List.mem_append_left _ (List.mem_map_of_mem (f := fun file : String × String =>
        Path.parts file.1) hfile), hpre, hne⟩
  · obtain ⟨entry, hentry⟩ := Option.ne_none_iff_exists'.mp hthere
    have hface := hfaces q
    rw [face?, hentry, Option.map_some] at hface
    obtain ⟨file, hfile, hpre, -⟩ := face_template h haside hface.symm
    exact (usable_below (proper_templateFiles file hfile) (hfiles file hfile) hq hpre).2

/-- A canvas can be stored in a new workspace. -/
theorem exists_storeCanvas (h : Begun t name place starterItems w)
    (hleads : w.Leads (Path.wholeWay name) place)
    (haside : ∀ more, ¬ t.LeadsThrough name (place ++ "canvases" :: more))
    (hroom : isRoomCode room = true) (husable : Path.IsUsable (canvasFile name room)) (text : String) :
    ∃ w', (writeText (canvasFile name room) text).runOn w = (.ok (), w')
      ∧ w.Alters (· = place ++ ["canvases", room ++ ".json"]) (fun _ => False) w'
      ∧ w'.Leads (Path.wholeWay name) place
      ∧ w'.top.face? (place ++ ["canvases", room ++ ".json"]) = some (.file text.toUTF8) := by
  have hfile := proper_canvasFile hroom
  have hparts : Path.parts ("canvases/" ++ (room ++ ".json")) = ["canvases", room ++ ".json"] := by
    have hslash : "canvases/" = "canvases" ++ "/" := by decide
    have hfolder : Path.parts "canvases" = ["canvases"] := by decide
    rw [hslash, Path.parts_append_slash, hfolder, Path.parts_proper hfile]
    rfl
  have hdescends := Path.descends_join ("canvases/" ++ (room ++ ".json"))
    (by rw [hparts]; simp [hfile]; decide) name
  rw [hparts] at hdescends
  have hpath : w.Reaches place (["canvases"] ++ [room ++ ".json"]) (canvasFile name room) :=
    reaches (b := freshBench name place) hleads hdescends husable
  have hfolder : w.top.face? (place ++ ["canvases"]) = some .folder :=
    h.made (["canvases"], .folder) (by simp [starterItems])
  -- Nothing is in the place of the canvas but the canvas that comes with the workspace.
  have hplace : w.top.face? (place ++ ["canvases"] ++ [room ++ ".json"]) = none
      ∨ ∃ before, w.top.face? (place ++ ["canvases"] ++ [room ++ ".json"]) = some (.file before) := by
    rw [List.append_assoc]
    by_cases hdemo : room ++ ".json" = "demo.json"
    · refine .inr ⟨Starter.demoCanvas.toUTF8, ?_⟩
      rw [hdemo]
      exact h.made (["canvases", "demo.json"], .file Starter.demoCanvas.toUTF8) (by simp [starterItems])
    · refine .inl (h.nothing _ (by simp) (haside _) ?_)
      intro item hitem hpre
      have hnames : ∀ item ∈ starterItems, ["canvases"] <+: item.1 →
          item.1 = ["canvases"] ∨ item.1 = ["canvases", "demo.json"] := by decide
      rcases hnames item hitem ((List.prefix_append _ _).trans hpre) with heq | heq
      · rw [heq] at hpre
        simpa using hpre.length_le
      · rw [heq] at hpre
        exact hdemo (by simpa using hpre)
  obtain ⟨w', hrun, halters, hself⟩ := exists_writeBytes hpath hfolder hplace text.toUTF8
  rw [List.append_assoc] at halters hself hplace
  refine ⟨w', hrun, halters, hleads.stays halters.terrain fun q hq => ?_, hself⟩
  have hne : q ≠ place ++ ["canvases", room ++ ".json"] := by
    rintro rfl
    rcases hplace with hnone | ⟨before, hbefore⟩
    · exact absurd (hq.symm.trans hnone) (by simp)
    · exact absurd (hq.symm.trans hbefore) (by simp)
  exact ((halters.face q hne).resolve_right fun h => h.1).trans hq

/-- The configuration of a new workspace can be loaded. -/
theorem runOn_load (hleads : w.Leads (Path.wholeWay name) place)
    (husable : Path.IsUsable (Path.join name Config.fileName))
    (hfile : w.top.face? (place ++ [Config.fileName]) = some (.file Starter.configText.toUTF8)) :
    (Config.load (Path.join name Config.fileName)).runOn w = (.ok (Starter.config name), w) := by
  have hparts : Path.parts Config.fileName = [Config.fileName] := by decide
  have hdescends := Path.descends_join Config.fileName (by decide) name
  rw [hparts] at hdescends
  have hread := runOn_readText (reaches (b := freshBench name place) hleads hdescends husable) hfile
  unfold Config.load
  dsimp only
  rw [runOn_bind, runOn_mapError, hread]
  simp only [Except.mapError, parse_configText]
  rfl

/-- The pages of a canvas that has been stored can be read. -/
theorem runOn_pages (hleads : w.Leads (Path.wholeWay name) place) (hroom : isRoomCode room = true)
    (husable : Path.IsUsable (Path.join (Starter.config name).canvasesFolder (room ++ ".json")))
    (hcanvas : w.top.face? (place ++ ["canvases", room ++ ".json"]) = some (.file text.toUTF8))
    (hpages : parsePages text = .ok pages) :
    ((Store.ofFolder (Starter.config name).canvasesFolder).pages room).runOn w = (.ok pages, w) := by
  have hfile := proper_canvasFile hroom
  have hfolder : Path.parts "canvases" = ["canvases"] := by decide
  have hdescends := (descends_base name "canvases" (by decide)).join (room ++ ".json")
    (by simpa [Path.parts_proper hfile] using hfile)
  rw [hfolder, Path.parts_proper hfile] at hdescends
  have hread := runOn_readText (reaches (b := freshBench name place) hleads hdescends husable) hcanvas
  have hattempt : (attempt (readText (Path.join (Path.join (Starter.config name).baseFolder "canvases")
      (room ++ ".json"))) : ExportAction _).runOn w = (.ok (.ok text), w) := by
    rw [runOn_attempt, hread]
  have hlookup : (Store.ofFolder (Starter.config name).canvasesFolder room).runOn w
      = (.ok (some text), w) := by
    unfold Store.ofFolder canvasPath?
    rw [hroom]
    exact runOn_bind_of_ok hattempt rfl
  refine runOn_bind_of_ok hlookup ?_
  rw [loadPages_of_parsePages hpages]
  rfl

/-- A canvas can be stored in a new workspace, and then the configuration can be loaded. -/
theorem exists_stored (h : Begun t name place starterItems w)
    (hleads : w.Leads (Path.wholeWay name) place)
    (haside : ∀ more, ¬ t.LeadsThrough name (place ++ "canvases" :: more))
    (hroom : isRoomCode room = true)
    (hshort : ∀ path ∈ exportPaths name room pages, Path.IsUsable path) (text : String) :
    ∃ stored, (writeText (canvasFile name room) text).runOn w = (.ok (), stored)
      ∧ (Config.load (Path.join name Config.fileName)).runOn stored
        = (.ok (Starter.config name), stored)
      ∧ w.Alters (· = place ++ ["canvases", room ++ ".json"]) (fun _ => False) stored
      ∧ stored.Leads (Path.wholeWay name) place
      ∧ stored.top.face? (place ++ ["canvases", room ++ ".json"]) = some (.file text.toUTF8) := by
  obtain ⟨stored, hstore, halters, hleads', hcanvas⟩ :=
    exists_storeCanvas h hleads haside hroom (hshort _ (by simp [exportPaths])) text
  refine ⟨stored, hstore, ?_, halters, hleads', hcanvas⟩
  refine runOn_load hleads' (hshort _ (by simp [exportPaths])) ?_
  have hmade := h.made ([Config.fileName], .file Starter.configText.toUTF8) (by simp [starterItems])
  exact (halters.face_of_ne_none (by simp) (by rw [hmade]; simp)).trans hmade

/-- **A new workspace can export every canvas.** Once a canvas that can be read has been stored as that
of a room, the configuration of the workspace can be loaded and the export succeeds, with one route
for each page. -/
theorem export_of_init (htidy : w.top.Tidy) (hinit : (init name).runOn w = (.ok (), s))
    (hfresh : IsFresh w name) (hroom : isRoomCode room = true) (hpages : parsePages text = .ok pages)
    (hshort : ∀ path ∈ exportPaths name room pages, Path.IsUsable path) :
    ∃ stored report exported,
      (writeText (canvasFile name room) text).runOn s.workspace = (.ok (), stored)
        ∧ (Config.load (Path.join name Config.fileName)).runOn stored
          = (.ok (Starter.config name), stored)
        ∧ (exportRoom (Starter.config name) (Store.ofFolder (Starter.config name).canvasesFolder)
          room).runOn stored = (.ok report, exported)
        ∧ report.routes = planRoutes pages ∧ report.routes.length = pages.length := by
  obtain ⟨place, haim, hnothing, haside⟩ := hfresh
  obtain ⟨hbegun, hleads⟩ := begun_of_init htidy haim hnothing hinit
  obtain ⟨stored, hstore, hload, halters, hleads', hcanvas⟩ := exists_stored hbegun hleads
    (haside "canvases" (by simp [Starter.folders])) hroom hshort text
  have hkept : ∀ q, q ≠ ["canvases", room ++ ".json"] →
      stored.top.face? (place ++ q) = s.workspace.top.face? (place ++ q) := fun q hq =>
    (halters.face _ fun heq => hq (List.append_cancel_left heq)).resolve_right fun h => h.1
  -- There is no export yet.
  have hfree : ∀ more, stored.top.face? (place ++ "tmp-export" :: more) = none := by
    intro more
    have htop : ∀ item ∈ starterItems, ¬ ["tmp-export"] <+: item.1 := by decide
    rw [hkept _ (by simp)]
    refine hbegun.nothing _ (by simp) (haside _ (by simp [Starter.folders]) _) fun item hitem hpre => ?_
    exact htop item hitem ((List.prefix_append ["tmp-export"] more).trans hpre)
  have hopen : IsOpenWay stored.top place
      ((freshBench name place).staging (Starter.config name) room) := by
    intro front hfront
    cases front with
    | nil => exact .inr (by simpa using hleads'.folder)
    | cons n more =>
        obtain ⟨rfl, -⟩ := List.cons_prefix_cons.mp hfront
        exact .inl (hfree more)
  obtain ⟨children, hchildren, hroutes, hstock⟩ := exists_stock hbegun haside hshort
  have htemplate : stored.top.get? (place ++ ["templates", "flutter"]) = some (.folder children) := by
    refine (get?_eq_of_face? hbegun.tidy (halters.tidy hbegun.tidy) fun q => ?_).trans hchildren
    rw [List.append_assoc]
    exact hkept _ (by simp)
  obtain ⟨patched, hpatch⟩ := exists_patchPages_routesText pages
  have hfits : Fits (freshBench name place) (Starter.config name) room (exportLayout pages) :=
    fits_of_usable hroom hshort
  obtain ⟨exported, hexport⟩ := exists_exportRoom hfits hstock (hstock.isFolder hleads' htemplate)
    (runOn_clearStaging_of_missing hfits hleads' hopen (hfree _)) (halters.tidy hbegun.tidy) hleads'
    hopen (hfree _)
    (fun ending _ => by rw [List.append_assoc]; exact hfree _) htemplate hroutes hpatch
    (runOn_pages hleads' hroom (hshort _ (by simp [exportPaths])) hcanvas hpages)
    fun route hroute => List.mem_append_right _ (List.mem_map_of_mem hroute)
  exact ⟨stored, _, exported, hstore, hload, hexport, rfl, length_planRoutes pages⟩

/-- A file system with nothing in it. -/
def nothingThere : Workspace := ⟨.folder [], []⟩

theorem tidy_nothingThere : nothingThere.top.Tidy := tidy_newFolder

theorem links_nothingThere (q : List String) : nothingThere.terrain.links q = none := by
  show nothingThere.link? q = none
  rw [Workspace.link?]
  cases q with
  | nil => rfl
  | cons n more => rfl

theorem parsePages_noPages : parsePages "[]" = .ok [] := by
  have hempty : ((parsePages "[]").toOption.any List.isEmpty) = true := by decide +kernel
  cases hpages : parsePages "[]" with
  | error e => simp [hpages, Except.toOption] at hempty
  | ok pages =>
      have hnil : pages.isEmpty = true := by simpa [hpages, Except.toOption] using hempty
      rw [List.isEmpty_iff.mp hnil]

/-- The small canvas can be read. -/
theorem parsePages_homeCanvas : parsePages homeCanvas = .ok homePages := by
  have hblank : blankString homeCanvas = false := by decide +kernel
  have hload := loadPages_homeCanvas ""
  simpa [loadPages, hblank] using hload

theorem export_of_init_x : nothingThere.top.Tidy
    ∧ ∃ s, (init "x").runOn nothingThere = (.ok (), s) ∧ IsFresh nothingThere "x"
      ∧ isRoomCode "abc" = true ∧ parsePages homeCanvas = .ok homePages
      ∧ (∀ path ∈ exportPaths "x" "abc" homePages, Path.IsUsable path)
      ∧ ∃ stored report exported,
        (writeText (canvasFile "x" "abc") homeCanvas).runOn s.workspace = (.ok (), stored)
          ∧ (Config.load (Path.join "x" Config.fileName)).runOn stored
            = (.ok (Starter.config "x"), stored)
          ∧ (exportRoom (Starter.config "x") (Store.ofFolder (Starter.config "x").canvasesFolder)
            "abc").runOn stored = (.ok report, exported)
          ∧ report.routes = planRoutes homePages ∧ report.routes.length = homePages.length := by
  have hinit : ((init "x").runOn nothingThere).1 = .ok () := by
    delta init writeTemplateFile writeNew writeText writeBytes FileAction.makeFolders makeFirst
      makeFirst._f makeFolder FileAction.resolve Workspace.isFolder Workspace.exists?
      Workspace.entry? Workspace.resolve
    rw [Workspace.walk_eq_walkBy]
    decide +kernel
  have hfresh : IsFresh nothingThere "x" := by
    refine ⟨["x"], Terrain.aim_name (by decide) (links_nothingThere _), fun n more => rfl, ?_⟩
    rintro n - more ⟨front, hfront, haim⟩
    have hsteps : Path.steps "x" = ["x"] := by decide +kernel
    have hstart : nothingThere.terrain.start "x" = [] := by decide +kernel
    rw [hsteps] at hfront
    have hproper : ∀ m ∈ front, ProperName m := fun m hm => by
      obtain rfl := List.mem_singleton.mp (hfront.subset hm)
      decide
    rw [hstart, Terrain.aimFrom_proper hproper fun _ _ _ => links_nothingThere _] at haim
    have hlength := hfront.length_le
    rw [show front = ["x"] ++ n :: more from Option.some.inj haim] at hlength
    simp at hlength
  have hroom : isRoomCode "abc" = true := by decide +kernel
  have hshort : ∀ path ∈ exportPaths "x" "abc" homePages, Path.IsUsable path := by decide +kernel
  exact ⟨tidy_nothingThere, _, Prod.ext hinit rfl, hfresh, hroom, parsePages_homeCanvas, hshort,
    export_of_init tidy_nothingThere (Prod.ext hinit rfl) hfresh hroom parsePages_homeCanvas hshort⟩

/-- A name that leads through the archive of a room. -/
def ownPath : String := "tmp-export/flutter-a.zip/../.."

theorem aimFrom_ownPath : nothingThere.terrain.aimFrom true maxLinks []
    ["tmp-export", "flutter-a.zip", "..", ".."] = some [] := by
  simp [Terrain.aimFrom, links_nothingThere]

theorem aim_ownPath : nothingThere.terrain.aim true ownPath = some [] := by
  have hparts : Path.parts ownPath = ["tmp-export", "flutter-a.zip", "..", ".."] := by decide
  have hstart : nothingThere.terrain.start ownPath = [] := by decide
  rw [Terrain.aim, hparts, hstart, aimFrom_ownPath]

theorem leadsThrough_ownPath {q : List String} (h : nothingThere.terrain.LeadsThrough ownPath q) :
    q <+: ["tmp-export", "flutter-a.zip"] := by
  obtain ⟨front, hfront, haim⟩ := h
  have hsteps : Path.steps ownPath = ["tmp-export", "flutter-a.zip", "..", ".."] := by decide
  have hstart : nothingThere.terrain.start ownPath = [] := by decide
  rw [hsteps] at hfront
  rw [hstart] at haim
  simp only [List.prefix_cons_iff, List.prefix_nil] at hfront
  rcases hfront with rfl | ⟨_, rfl, rfl | ⟨_, rfl, rfl | ⟨_, rfl, rfl | ⟨_, rfl, rfl⟩⟩⟩⟩
  all_goals
    simp [Terrain.aimFrom, links_nothingThere] at haim
    subst haim
    decide

/-- A workspace cannot export a room if its name leads through the archive of that room, as there is
a folder in the place of the archive then. -/
theorem export_of_init_ownPath : nothingThere.exists? ownPath = false ∧ isRoomCode "a" = true
    ∧ parsePages "[]" = .ok [] ∧ (∀ path ∈ exportPaths ownPath "a" [], Path.IsUsable path)
    ∧ ∃ s stored, (init ownPath).runOn nothingThere = (.ok (), s)
      ∧ (writeText (canvasFile ownPath "a") "[]").runOn s.workspace = (.ok (), stored)
      ∧ (Config.load (Path.join ownPath Config.fileName)).runOn stored
        = (.ok (Starter.config ownPath), stored)
      ∧ ∀ report exported, (exportRoom (Starter.config ownPath)
          (Store.ofFolder (Starter.config ownPath).canvasesFolder) "a").runOn stored
        ≠ (.ok report, exported) := by
  have hinit : ((init ownPath).runOn nothingThere).1 = .ok () := by
    delta init writeTemplateFile writeNew writeText writeBytes FileAction.makeFolders makeFirst
      makeFirst._f makeFolder FileAction.resolve Workspace.isFolder Workspace.exists?
      Workspace.entry? Workspace.resolve
    rw [Workspace.walk_eq_walkBy]
    decide +kernel
  have hmissing : nothingThere.exists? ownPath = false := by
    delta Workspace.exists? Workspace.entry? Workspace.resolve
    rw [Workspace.walk_eq_walkBy]
    decide +kernel
  have hroom : isRoomCode "a" = true := by decide +kernel
  have hshort : ∀ path ∈ exportPaths ownPath "a" [], Path.IsUsable path := by decide +kernel
  obtain ⟨hbegun, hleads⟩ := begun_of_init tidy_nothingThere aim_ownPath (fun n more => rfl)
    (Prod.ext hinit rfl)
  obtain ⟨stored, hstore, hload, halters, hleads', -⟩ := exists_stored hbegun hleads
    (fun more hway => by simpa using leadsThrough_ownPath hway) hroom hshort "[]"
  refine ⟨hmissing, hroom, parsePages_noPages, hshort, _, stored, Prod.ext hinit rfl, hstore, hload,
    fun report exported => ?_⟩
  have ht : stored.terrain = nothingThere.terrain := halters.terrain.trans hbegun.terrain
  have hscratch : stored.terrain.aim true (Starter.config ownPath).scratchFolder
      = some ["tmp-export"] := by
    have hfolder : (Starter.config ownPath).scratchFolder = Path.join ownPath "tmp-export" := by
      decide +kernel
    have hparts : Path.parts "tmp-export" = ["tmp-export"] := by decide +kernel
    rw [ht, hfolder, Terrain.aim_join (by decide +kernel) fun _ _ _ _ _ => links_nothingThere _,
      aim_ownPath, hparts]
    rfl
  have hplain : stored.terrain.IsPlain (Starter.config ownPath).scratchFolder := by
    rw [ht]
    exact fun _ _ _ _ => links_nothingThere _
  have hconfig : (Starter.config ownPath).fault? = none := by decide +kernel
  -- The name leads through the place of the archive, so that is a folder.
  have hfolder : stored.top.face? (["tmp-export"] ++ [(Starter.config ownPath).exportName "a" ++ ".zip"])
      = some .folder := by
    obtain ⟨children, hwalk⟩ := hleads'
    have hsteps : (Path.wholeWay ownPath).steps = ["tmp-export", "flutter-a.zip"] ++ ["..", ".."] := by
      decide +kernel
    have hhere : stored.here = [] := congrArg Terrain.here ht
    have hstart : (if (Path.wholeWay ownPath).absolute then [] else stored.here) = [] := by
      rw [hhere, ite_self]
    rw [hsteps, hstart] at hwalk
    obtain ⟨q, kids, hfront⟩ := Workspace.exists_walk_front (by decide) hwalk
    have haim := Workspace.aimFrom_of_walk hfront
    rw [ht, Terrain.aimFrom_proper (by decide) fun _ _ _ => links_nothingThere _] at haim
    have hname : (Starter.config ownPath).exportName "a" ++ ".zip" = "flutter-a.zip" := by
      decide +kernel
    rw [hname]
    obtain rfl : ["tmp-export", "flutter-a.zip"] = q := Option.some.inj haim
    exact face?_eq_folder_iff.mpr ⟨kids, Workspace.holds_of_walk hfront⟩
  exact exportRoom_ne_ok_of_folder hconfig (isRoomText_of_isRoomCode hroom)
    (Store.isLookup_ofFolder _) (halters.tidy hbegun.tidy) hplain hscratch hfolder report

end Command

end CanvasFlutter
