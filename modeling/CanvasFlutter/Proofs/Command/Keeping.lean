import CanvasFlutter.Proofs.Command.Fresh
import CanvasFlutter.Proofs.Workspace.Gap

namespace CanvasFlutter

/-!
# `CanvasFlutter.Proofs.Command.Keeping` — a new workspace and the files that are there already

A new workspace is only begun if its name leads to nothing. Then folders are made on the way of the
name and files are written to where their paths lead by now. That is no place of the workspace's own
in two cases: the empty name leads to nothing, while the paths within it are names in the working
folder; and a name that goes up from a missing folder leads to nothing as long as that folder is
missing. With any other name nothing is written to a file that was there.

## Contents
- **Files.** `Starter.files`; `HoldsStarter`: the text of a new file stands at a place.
- **Steps.** `Keeps`, `Fills`: what writing one new file after another does to all files.
- **Names.** `exists?_of_leads`, `Path.parent?_join`; `leaves_of_firm`: names that lead to nothing.
- **Keeping.** `init_keeps_files`.
-/

open Entry FileAction CommandAction

/-! ## Files -/

/-- The files of a new workspace, by path within it. -/
def Starter.files : List (String × String) :=
  templateFiles.map (fun file => ("templates/flutter/" ++ file.1, file.2))
    ++ [("canvases/demo.json", demoCanvas), (Config.fileName, configText), (".gitignore", ignoreText)]

theorem Starter.proper_files : ∀ file ∈ files, ∀ n ∈ Path.parts file.1, ProperName n := by
  decide +kernel

namespace Command

/-- At a place stands the text of a new file whose path within the named workspace points there. -/
def HoldsStarter (w : Workspace) (name : String) (q : List String) : Prop :=
  ∃ file ∈ Starter.files, w.terrain.aim true (Path.join name file.1) = some q
    ∧ w.top.face? q = some (.file file.2.toUTF8)

/-! ## Steps -/

/-- A workspace and a later one with the same links: every file has stayed as it was, unless a new
file has been written in its place. -/
structure Keeps (name : String) (w w' : Workspace) : Prop where
  terrain : w'.terrain = w.terrain
  tidy : w.top.Tidy → w'.top.Tidy
  file : ∀ q content, w.top.face? q = some (.file content) →
    w'.top.face? q = some (.file content) ∨ HoldsStarter w' name q

variable {name : String} {w w' u : Workspace} {q : List String}

theorem Keeps.refl (name : String) (w : Workspace) : Keeps name w w :=
  ⟨rfl, id, fun _ _ h => .inl h⟩

/-- A new file stays or is overwritten with another one. -/
theorem Keeps.holdsStarter (h : Keeps name w w') (hq : HoldsStarter w name q) :
    HoldsStarter w' name q := by
  obtain ⟨file, hfile, haim, hface⟩ := hq
  rcases h.file q _ hface with hsame | hnew
  · exact ⟨file, hfile, h.terrain ▸ haim, hsame⟩
  · exact hnew

theorem Keeps.trans (h : Keeps name w u) (h' : Keeps name u w') : Keeps name w w' := by
  refine ⟨h'.terrain.trans h.terrain, h'.tidy ∘ h.tidy, fun q content hq => ?_⟩
  rcases h.file q content hq with hsame | hnew
  · exact h'.file q content hsame
  · exact .inr (h'.holdsStarter hnew)

/-- What only makes folders keeps all files. -/
theorem Keeps.of_alters {make : List String → Prop}
    (h : w.Alters (fun _ => False) make w') : Keeps name w w' := by
  refine ⟨h.terrain, h.tidy, fun q content hq => .inl ?_⟩
  rw [h.face_of_ne_none id (by rw [hq]; simp), hq]

/-- An action keeps all files but those that it overwrites with new ones, and once it has succeeded
the new files with these paths have been written. -/
def Fills (name : String) (paths : List String) (action : CommandAction Unit) : Prop :=
  ∀ s r s', s.workspace.top.Tidy → action.run.run s = (r, s') →
    Keeps name s.workspace s'.workspace
      ∧ (r = .ok () → ∀ path ∈ paths, ∃ q, s'.workspace.terrain.aim true (Path.join name path) = some q
        ∧ HoldsStarter s'.workspace name q)

variable {paths more : List String} {action : CommandAction Unit}

theorem Fills.bind {next : Unit → CommandAction Unit} (h : Fills name paths action)
    (hnext : Fills name more (next ())) : Fills name (paths ++ more) (action >>= next) := by
  intro s r s' htidy hrun
  rcases run_bind_cases hrun with ⟨e, hfirst, rfl⟩ | ⟨_, between, hfirst, hrest⟩
  · exact ⟨(h s _ s' htidy hfirst).1, fun hok => by cases hok⟩
  · obtain ⟨hkeeps, hpaths⟩ := h s _ between htidy hfirst
    obtain ⟨hafter, hmore⟩ := hnext between r s' (hkeeps.tidy htidy) hrest
    refine ⟨hkeeps.trans hafter, fun hok path hpath => ?_⟩
    rcases List.mem_append.mp hpath with hfront | hback
    · obtain ⟨q, haim, hq⟩ := hpaths rfl path hfront
      exact ⟨q, hafter.terrain ▸ haim, hafter.holdsStarter hq⟩
    · exact hmore hok path hback

/-- Writing what a list asks for, one after the other. -/
theorem fills_forM {write : String × String → CommandAction Unit} {path : String × String → String}
    {files : List (String × String)} (h : ∀ file ∈ files, Fills name [path file] (write file)) :
    Fills name (files.map path) (files.forM write) := by
  induction files with
  | nil =>
      intro s r s' _ hrun
      obtain ⟨rfl, rfl⟩ := Prod.mk.inj hrun
      exact ⟨.refl name _, by simp⟩
  | cons file rest ih =>
      obtain ⟨hfile, hrest⟩ := List.forall_mem_cons.mp h
      exact hfile.bind (ih hrest)

/-- Printing changes nothing. -/
theorem fills_printLine (name line : String) : Fills name [] (printLine line) := by
  intro s r s' _ hrun
  obtain ⟨rfl, rfl⟩ := Prod.mk.inj hrun
  exact ⟨.refl name _, by simp⟩

theorem fills_makeFolders (name path what : String) :
    Fills name [] (onFiles (.step what) (makeFolders path)) := by
  intro s r s' htidy hrun
  rw [run_onFiles] at hrun
  obtain ⟨rfl, rfl⟩ := Prod.mk.inj hrun
  have hdoes : Does s.workspace.terrain (fun _ => False) (fun _ => True) (makeFolders path)
      fun _ => True := does_makeFolders fun _ _ => .inr trivial
  exact ⟨.of_alters (hdoes.alters rfl htidy), by simp⟩

theorem fills_openTemplate (name path : String) : Fills name [] (openTemplate path) := by
  unfold openTemplate
  split
  · exact fills_makeFolders name _ _
  · intro s r s' _ hrun
    obtain ⟨rfl, rfl⟩ := Prod.mk.inj hrun
    exact ⟨.refl name _, by simp⟩

/-- Writing a new file overwrites what its path points at and nothing else. -/
theorem fills_writeNew (shown : String) {path text : String} (hfile : (path, text) ∈ Starter.files) :
    Fills name [path] (writeNew shown (Path.join name path) text) := by
  intro s r s' htidy hrun
  rw [writeNew, run_onFiles] at hrun
  obtain ⟨rfl, rfl⟩ := Prod.mk.inj hrun
  cases hwrite : (writeText (Path.join name path) text).runOn s.workspace with
  | mk result w' =>
      cases result with
      | error fault =>
          obtain rfl := eq_of_writeBytes_error hwrite
          exact ⟨.refl name _, fun hok => by cases hok⟩
      | ok _ =>
          obtain ⟨place, n, spot, hresolve, -, -⟩ := exists_store_of_writeBytes hwrite
          have haim := Workspace.aim_of_resolve hresolve
          have hdoes : Does s.workspace.terrain (· = spot.place) (fun _ => False)
              (writeText (Path.join name path) text) fun _ => True :=
            does_writeText _ fun q hq => Option.some.inj (hq.symm.trans haim)
          have halters := (hdoes s.workspace _ w' rfl htidy hwrite).1
          have hnew : HoldsStarter w' name spot.place :=
            ⟨(path, text), hfile, halters.terrain ▸ haim, face?_of_writeBytes hwrite haim⟩
          refine ⟨⟨halters.terrain, halters.tidy, fun q content hq => ?_⟩, fun _ p hp => ?_⟩
          · by_cases hplace : q = spot.place
            · exact .inr (hplace ▸ hnew)
            · refine .inl ?_
              rw [halters.face_of_ne_none hplace (by rw [hq]; simp), hq]
          · obtain rfl := List.mem_singleton.mp hp
            exact ⟨spot.place, halters.terrain ▸ haim, hnew⟩

/-- **What making a new workspace does to the files that are there**, once its name has been found
to lead to nothing. -/
theorem fills_fillWorkspace (name : String) :
    Fills name (Starter.files.map (·.1)) (fillWorkspace name) := by
  have htemplate : ∀ file ∈ Starter.templateFiles, Fills name ["templates/flutter/" ++ file.1]
      (writeTemplateFile (Path.join name "templates/flutter") file) := by
    intro file hfile
    have hmem : ("templates/flutter/" ++ file.1, file.2) ∈ Starter.files :=
      List.mem_append_left _ (List.mem_map.mpr ⟨file, hfile, rfl⟩)
    rw [writeTemplateFile_eq, join_template name (proper_templateFiles file hfile)]
    exact (fills_openTemplate name _).bind (fills_writeNew _ hmem)
  have hsettings : ∀ shown {path text}, (path, text) ∈ [("canvases/demo.json", Starter.demoCanvas),
      (Config.fileName, Starter.configText), (".gitignore", Starter.ignoreText)] →
      Fills name [path] (writeNew shown (Path.join name path) text) :=
    fun shown _ _ hfile => fills_writeNew shown (List.mem_append_right _ hfile)
  rw [Starter.files, List.map_append, List.map_map]
  show Fills name (_ ++ ([] ++ (["canvases/demo.json"] ++ ([Config.fileName] ++ ([".gitignore"] ++ [])))))
    (fillWorkspace name)
  refine (fills_forM htemplate).bind <| (fills_makeFolders name _ _).bind <| Fills.bind ?_ <|
    Fills.bind ?_ <| Fills.bind ?_ <| fills_printLine name _
  · exact hsettings _ (by simp)
  · exact hsettings _ (by simp)
  · exact hsettings _ (by simp)

end Command

/-! ## Names -/

namespace Path

variable {folder path name : String}

theorem prefix_join (hpath : isAbsolute path = false) (folder : String) :
    folder.toList <+: (join folder path).toList := by
  unfold join
  split
  · next h =>
      obtain rfl : folder = "" := by simpa [hpath] using h
      exact List.nil_prefix
  · split
    · exact ⟨path.toList, by rw [String.toList_append]⟩
    · exact ⟨"/".toList ++ path.toList, by rw [String.toList_append, String.toList_append,
        List.append_assoc]⟩

theorem dropEnding_eq_self {c : Char} {rest : Text} (hslash : c ≠ '/')
    (hdot : c = '.' → rest.head? ≠ some '/') : dropEnding (c :: rest) = c :: rest := by
  unfold dropEnding
  simp only [if_neg hslash]
  exact if_neg fun h => hdot h.1 h.2

/-- The parent of a name in a folder is the folder, letter for letter, if the folder's path does not
end in a slash or a dot. -/
theorem parent?_join {front : Text} {c : Char} (hname : ProperName name)
    (hfolder : folder.toList = front ++ [c]) (hslash : c ≠ '/') (hdot : c ≠ '.') :
    parent? (join folder name) = some folder := by
  have hempty : folder ≠ "" := by
    rintro rfl
    simp at hfolder
  have hrelative : isAbsolute name = false :=
    not_isAbsolute_of_proper (by simpa [parts_proper hname] using hname)
  have hends : Text.endsWith '/' folder.toList = false := by
    simp [Text.endsWith, hfolder, hslash]
  -- A parent is found from the end: the name is dropped, then the slash in front of it, and the
  -- folder ends in nothing that would be dropped, too.
  have hjoin : (join folder name).toList.reverse
      = name.toList.reverse ++ '/' :: c :: front.reverse := by
    rw [join, if_neg (by simp [hrelative, hempty]), if_neg (by simp [hends])]
    simp [hfolder]
  obtain ⟨n, rest, hlast⟩ : ∃ n rest, name.toList.reverse = n :: rest :=
    List.exists_cons_of_ne_nil (by simpa using hname.ne_empty)
  have hno : ∀ m ∈ n :: rest, m ≠ '/' := fun m hm heq => by
    rw [← hlast, List.mem_reverse] at hm
    exact hname.no_slash (heq ▸ hm)
  have hkeep : dropEnding (n :: rest ++ '/' :: c :: front.reverse)
      = n :: rest ++ '/' :: c :: front.reverse := by
    refine dropEnding_eq_self (hno n (by simp)) fun hn => ?_
    cases rest with
    | nil =>
        refine absurd ?_ hname.ne_dot
        rw [← String.toList_inj, ← List.reverse_inj, hlast, hn]
        rfl
    | cons m more => simpa using hno m (by simp)
  have hdrop : (n :: rest ++ '/' :: c :: front.reverse).dropWhile (· ≠ '/')
      = '/' :: c :: front.reverse := by
    rw [List.dropWhile_append_of_pos fun m hm => by simpa using hno m hm]
    simp
  have hfront : dropEnding ('/' :: c :: front.reverse) = c :: front.reverse := by
    show dropEnding (c :: front.reverse) = c :: front.reverse
    exact dropEnding_eq_self hslash fun h => absurd h hdot
  unfold parent?
  rw [hjoin, hlast, hkeep]
  split
  · next h => cases h
  · next h => simp at h
  · rw [hdrop, hfront, List.reverse_cons, List.reverse_reverse, ← hfolder, String.ofList_toList]

end Path

namespace Workspace

variable {w : Workspace} {path : String} {place : List String}

/-- What leads to a folder is there. -/
theorem exists?_of_leads (h : w.Leads (Path.wholeWay path) place) (hne : path ≠ "")
    (hnul : '\x00' ∉ path.toList) (hbytes : path.utf8ByteSize ≤ maxPathBytes) :
    w.exists? path = true := by
  obtain ⟨children, hwalk⟩ := h
  have hfull : w.walk true maxLinks (w.start path) (Path.parts path)
      = .ok (.taken place (.folder children)) := by
    refine walk_congr ?_ hwalk
    rw [Path.wholeWay, Path.steps, List.filter_filter]
    simp
  refine exists?_eq_true_iff.mpr ⟨place, .folder children, ?_⟩
  rw [resolve_of_bounds hne hnul hbytes, hfull]

end Workspace

namespace Command

variable {name : String} {w : Workspace}

/-- **A name that leads to nothing** and goes up from nothing that is missing: a folder on its way is
missing, or nothing is made at all. -/
theorem gap_or_idle (hname : name ≠ "") (hfirm : w.IsFirm name) (hmissing : w.exists? name = false) :
    (∃ place names, w.Gap name place names) ∨ (fillWorkspace name).leaves ⟨w, []⟩ = w := by
  have hparts : ∀ n ∈ Path.parts "templates/flutter", ProperName n := by decide
  have hfolder : Path.join name "templates/flutter" ≠ "" := Path.join_ne_empty _ (by decide)
  -- The first thing that is done is to make the folder of the template.
  have hfirst : ∀ fault, (makeFolders (Path.join name "templates/flutter")).runOn w
      = (.error fault, w) → (fillWorkspace name).leaves ⟨w, []⟩ = w := by
    intro fault hfails
    have hopen : (openTemplate (Path.join (Path.join name "templates/flutter") "pubspec.yaml")).run.run
        ⟨w, []⟩ = (.error (.step "Failed to create template directories" fault), ⟨w, []⟩) := by
      have hends : ∃ front, (Path.join name "templates/flutter").toList = front ++ ['r'] := by
        obtain ⟨front, hfront⟩ := Path.suffix_join name "templates/flutter"
        exact ⟨front ++ "templates/flutte".toList, by rw [← hfront, List.append_assoc]; rfl⟩
      obtain ⟨front, hfront⟩ := hends
      rw [openTemplate, Path.parent?_join (by decide) hfront (by decide) (by decide)]
      dsimp only
      rw [run_onFiles, hfails]
      rfl
    have hall : (fillWorkspace name).run.run ⟨w, []⟩
        = (.error (.step "Failed to create template directories" fault), ⟨w, []⟩) := by
      refine run_bind_of_error (run_bind_of_error ?_)
      rw [writeTemplateFile_eq]
      exact run_bind_of_error hopen
    rw [leaves, hall]
  by_cases hrefused : '\x00' ∈ (Path.join name "templates/flutter").toList
      ∨ maxPathBytes < (Path.join name "templates/flutter").utf8ByteSize
  · obtain ⟨fault, hfails⟩ := exists_fault_of_refused hfolder hrefused
    exact .inr (hfirst fault (hfails w))
  obtain ⟨hnul, hbytes⟩ := not_or.mp hrefused
  have hbegins : name.toList <+: (Path.join name "templates/flutter").toList :=
    Path.prefix_join (by decide) name
  have hnone : ¬ ∃ q, w.Leads (Path.wholeWay name) q := by
    rintro ⟨q, hleads⟩
    have hthere := Workspace.exists?_of_leads hleads hname (fun h => hnul (hbegins.subset h))
      ((Path.utf8ByteSize_le_of_prefix hbegins).trans (Nat.not_lt.mp hbytes))
    rw [hmissing] at hthere
    cases hthere
  -- So on the way to the folder of the template something is missing, and it is missing on the way
  -- of the name; or nothing can be made.
  cases hmake : (makeFolders (Path.join name "templates/flutter")).runOn w with
  | mk made v =>
      rcases makeFolders_idle_or_free hfolder hmake with ⟨rfl, hok⟩ | ⟨-, p, hp, place, n, asFolder, hfree⟩
      · cases made with
        | error fault => exact .inr (hfirst fault hmake)
        | ok _ =>
            obtain ⟨q, children, hresolve⟩ := Workspace.isFolder_eq_true_iff.mp (hok rfl)
            obtain ⟨p, hleads, -⟩ := Workspace.exists_leads_of_join hparts hresolve
            exact absurd ⟨p, hleads⟩ hnone
      · exact .inl ((Workspace.exists_leads_or_gap hfirm hparts hp hfree).resolve_left hnone)

/-! ## Keeping -/

variable {place names q : List String} {s : Session} {r : Except CommandError Unit}

/-- Where a folder is missing on the way of the name there is nothing in the places of the new
files. -/
theorem face?_of_gap (h : w.Gap name place names) {file : String × String}
    (hfile : file ∈ Starter.files) (haim : w.terrain.aim true (Path.join name file.1) = some q) :
    w.top.face? q = none := by
  have hgone : ∀ more, w.top.face? (place ++ names ++ more) = none :=
    h.face?_eq_none (List.prefix_refl _) h.nonempty
  have hclear : ∀ p, w.terrain.aim true name = some p → w.terrain.IsClear p (Path.parts file.1) := by
    intro p hp
    obtain rfl := Option.some.inj (h.aim.symm.trans hp)
    exact Workspace.isClear_of_missing (by simpa using hgone []) _
  rw [Terrain.aim_join (Starter.proper_files file hfile) hclear, h.aim] at haim
  obtain rfl := Option.some.inj haim
  exact hgone _

/-- With a name that goes up from nothing that is missing every file stays. -/
theorem face?_fillWorkspace {content : ByteArray} (htidy : w.top.Tidy) (hname : name ≠ "")
    (hfirm : w.IsFirm name) (hmissing : w.exists? name = false)
    (hrun : (fillWorkspace name).runOn w = (r, s)) (hq : w.top.face? q = some (.file content)) :
    s.workspace.top.face? q = some (.file content) := by
  obtain ⟨hkeeps, -⟩ := fills_fillWorkspace name ⟨w, []⟩ r s htidy hrun
  rcases gap_or_idle hname hfirm hmissing with ⟨place, names, hgap⟩ | hidle
  · -- A new file would have been written where something is missing, and there is no file there.
    refine (hkeeps.file q content hq).resolve_right ?_
    rintro ⟨file, hfile, haim, -⟩
    rw [hkeeps.terrain] at haim
    rw [face?_of_gap hgap hfile haim] at hq
    cases hq
  · have hsame : s.workspace = w := by
      rw [← hidle, leaves, show (fillWorkspace name).run.run ⟨w, []⟩ = (r, s) from hrun]
    rw [hsame, hq]

/-- **What a new workspace does to the files that are there.** All stay as they were, but where a
path of a new file leads to one of them that file is overwritten; if the name is taken nothing
changes. Where the command succeeds, every place that such a path points at holds the text of a new
file. So a file is lost if a path leads to it; with a name that is not empty and goes up from
nothing that is missing none does, and every file stays. -/
theorem init_keeps_files (htidy : w.top.Tidy) (hrun : (init name).runOn w = (r, s)) :
    (∀ q content, w.top.face? q = some (.file content) →
      s.workspace.top.face? q = some (.file content)
        ∨ w.exists? name = false ∧ HoldsStarter s.workspace name q)
      ∧ (r = .ok () → ∀ file ∈ Starter.files, ∃ q, w.terrain.aim true (Path.join name file.1) = some q
        ∧ HoldsStarter s.workspace name q)
      ∧ (name ≠ "" → w.IsFirm name → ∀ q content, w.top.face? q = some (.file content) →
        s.workspace.top.face? q = some (.file content)) := by
  rw [runOn_init] at hrun
  cases hthere : w.exists? name with
  | true =>
      rw [hthere, if_pos rfl] at hrun
      obtain ⟨rfl, rfl⟩ := Prod.mk.inj hrun
      exact ⟨fun _ _ h => .inl h, by simp, fun _ _ _ _ h => h⟩
  | false =>
      rw [hthere, if_neg (by simp)] at hrun
      obtain ⟨hkeeps, hfilled⟩ := fills_fillWorkspace name ⟨w, []⟩ r s htidy hrun
      refine ⟨fun q content hq => (hkeeps.file q content hq).imp_right fun hnew => ⟨rfl, hnew⟩,
        fun hok file hfile => ?_, fun hname hfirm q content =>
          face?_fillWorkspace htidy hname hfirm hthere hrun⟩
      obtain ⟨q, haim, hq⟩ := hfilled hok file.1 (List.mem_map_of_mem hfile)
      exact ⟨q, hkeeps.terrain ▸ haim, hq⟩

/-- A folder and a file that a new workspace would have, too. -/
def ignoreFileThere : Workspace := ⟨.folder [(".gitignore", .file "mine".toUTF8), ("d", .folder [])], []⟩

theorem isFirm_ignoreFileThere : ignoreFileThere.IsFirm "d/../new" := by
  intro front back q hsteps haim
  have hall : Path.steps "d/../new" = ["d", "..", "new"] := by decide
  have hstart : ignoreFileThere.terrain.start "d/../new" = [] := by decide
  rw [hall] at hsteps
  rw [hstart] at haim
  have hfront : front = ["d"] := by
    rcases List.cons_eq_append_iff.mp hsteps with ⟨rfl, h⟩ | ⟨more, rfl, h⟩
    · simp at h
    · rcases List.cons_eq_append_iff.mp h with ⟨rfl, -⟩ | ⟨last, rfl, hlast⟩
      · rfl
      · have hmem : ".." ∈ ["new"] := by simp [hlast]
        exact absurd hmem (by decide)
  have hd : ignoreFileThere.terrain.aimFrom true maxLinks [] ["d"] = some ["d"] :=
    Terrain.aimFrom_proper (by decide) fun _ _ _ => Workspace.links_of_isLinkless (by decide) _
  rw [hfront, hd] at haim
  obtain rfl := Option.some.inj haim
  decide

/-- The file stays when the workspace is named `d/../new` and is overwritten when the name is
empty. -/
theorem init_keeps_files_ignoreFile : ignoreFileThere.top.Tidy
    ∧ (∃ s, (init "d/../new").runOn ignoreFileThere = (.ok (), s) ∧ "d/../new" ≠ ""
      ∧ ignoreFileThere.IsFirm "d/../new"
      ∧ s.workspace.top.face? [".gitignore"] = some (.file "mine".toUTF8))
    ∧ ∃ s, (init "").runOn ignoreFileThere = (.ok (), s)
      ∧ ignoreFileThere.terrain.aim true (Path.join "" ".gitignore") = some [".gitignore"]
      ∧ HoldsStarter s.workspace "" [".gitignore"] := by
  have htidy : ignoreFileThere.top.Tidy := tidy_of_isTidy _ (by decide +kernel)
  have hfile : ignoreFileThere.top.face? [".gitignore"] = some (.file "mine".toUTF8) := by rfl
  have hinit : ∀ name ∈ ["d/../new", ""], ((init name).runOn ignoreFileThere).1 = .ok () := by
    delta init writeTemplateFile writeNew writeText writeBytes FileAction.makeFolders makeFirst
      makeFirst._f makeFolder FileAction.resolve Workspace.isFolder Workspace.exists?
      Workspace.entry? Workspace.resolve
    rw [Workspace.walk_eq_walkBy]
    decide +kernel
  have haim : ignoreFileThere.terrain.aim true (Path.join "" ".gitignore") = some [".gitignore"] :=
    Terrain.aim_name (by decide) (by decide)
  obtain ⟨-, -, hkeeps⟩ := init_keeps_files htidy (Prod.ext (hinit "d/../new" (by simp)) rfl)
  obtain ⟨-, hfills, -⟩ := init_keeps_files htidy (Prod.ext (hinit "" (by simp)) rfl)
  obtain ⟨q, hq, hnew⟩ := hfills rfl (".gitignore", Starter.ignoreText) (by simp [Starter.files])
  obtain rfl := Option.some.inj (haim.symm.trans hq)
  exact ⟨htidy, ⟨_, Prod.ext (hinit "d/../new" (by simp)) rfl, by decide, isFirm_ignoreFileThere,
    hkeeps (by decide) isFirm_ignoreFileThere _ _ hfile⟩, _, Prod.ext (hinit "" (by simp)) rfl, haim, hnew⟩

end Command

end CanvasFlutter
