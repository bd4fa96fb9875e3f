import CanvasFlutter.Proofs.Export.Unseen
import CanvasFlutter.Proofs.Workspace.Commute

namespace CanvasFlutter

/-!
# `CanvasFlutter.Proofs.Export.Order` — the order of exports does not matter

Exports of different rooms share the template, the canvases and the scratch folder, and nothing that
belongs to one room belongs to another. So they commute, unless one of them comes by what the other
changes. The first of them may have to make the scratch folder. Then it does what it would have done
if the way had been there before, and so does the other.

## Contents
- **Rooms.** `Config.not_owns_of_owns`; `Config.KeepsOff`, `KeepsOff.overlooks`.
- **Runs.** `runOn_exportRoom`; `exportRoom_idle`: when an export leaves everything alone.
- **Gaps.** `matches_exportRoom`: it makes no difference whether the way has been made before.
- **Workspaces without links.** `KeepsOff.of_linkless`.
- **Exports.** `commutes_exportRoom`.
-/

open Entry Package FileAction

/-! ## Rooms -/

namespace Config

variable {c : Config} {t : Terrain} {w : Workspace} {room other : String} {q : List String}

/-- The endings of names that belong to a room. -/
def endings : List String := ["", ".zip", ".zip.partial"]

/-- What belongs to a room is below a name in the scratch folder. -/
theorem Owns.exists_name (h : c.Owns t room q) :
    ∃ ending ∈ endings, ∃ more, c.InScratch t ((c.exportName room ++ ending) :: more) q := by
  obtain ⟨more, hin⟩ | hin | hin := h
  · exact ⟨"", by decide, more, by simpa using hin⟩
  · exact ⟨".zip", by decide, [], hin⟩
  · exact ⟨".zip.partial", by decide, [], hin⟩

/-- Names that belong to rooms tell the rooms apart, since no room's code has a dot. -/
theorem room_inj {ending ending' : String} (hroom : IsRoomText room) (hother : IsRoomText other)
    (hending : ending ∈ endings) (hending' : ending' ∈ endings)
    (h : c.exportName room ++ ending = c.exportName other ++ ending') : room = other := by
  have hcut : ∀ {r e : String}, IsRoomText r → e ∈ endings →
      (r.toList ++ e.toList).takeWhile (· ≠ '.') = r.toList := by
    intro r e hr he
    have hdots : ∀ c ∈ r.toList, decide (c ≠ '.') = true := by
      intro c hc
      rw [decide_eq_true_eq]
      rintro rfl
      exact absurd (hr _ hc) (by decide)
    have hends : ∀ e ∈ endings, e.toList.takeWhile (· ≠ '.') = [] := by decide
    rw [List.takeWhile_append_of_pos hdots, hends e he, List.append_nil]
  have hlist := congrArg String.toList h
  simp only [exportName, String.toList_append, List.append_assoc] at hlist
  have htail := List.append_cancel_left (List.append_cancel_left hlist)
  rw [← String.toList_inj, ← hcut hroom hending, htail, hcut hother hending']

/-- **What belongs to a room belongs to no other**, and nothing below it does. -/
theorem not_owns_of_owns (hroom : IsRoomText room) (hother : IsRoomText other) (hne : room ≠ other)
    (h : c.Owns t room q) (names : List String) : ¬ c.Owns t other (q ++ names) := by
  intro hagain
  obtain ⟨ending, hending, more, S, hS, rfl⟩ := h.exists_name
  obtain ⟨ending', hending', more', hin⟩ := hagain.exists_name
  have hself : c.InScratch t ((c.exportName room ++ ending) :: (more ++ names))
      (S ++ (c.exportName room ++ ending) :: more ++ names) := ⟨S, hS, by simp⟩
  have hname := (List.cons.inj (hself.names_inj hin)).1
  exact hne (room_inj hroom hother hending hending' hname)

/-- A room has a canvas that can be loaded. -/
def HasCanvas (c : Config) (w : Workspace) (room : String) : Prop :=
  ∃ pages, (((Store.ofFolder c.canvasesFolder).pages room).runOn w).1 = .ok pages

/-- What is missing on the way to the scratch folder, where an export may make folders. -/
def Unmade (c : Config) (w : Workspace) (q : List String) : Prop :=
  w.terrain.LeadsThrough c.scratchFolder q ∧ w.top.face? q = none

/-- An export comes by nothing that belongs to another room, and if the other room has a canvas, its
own canvas is not to be found by way of folders that are still to be made. -/
structure KeepsOff (c : Config) (w : Workspace) (room other : String) : Prop where
  scratch : w.terrain.Avoids (c.Owns w.terrain other) c.scratchFolder
  template : w.terrain.Avoids (c.Owns w.terrain other) c.templateFolder
  canvas : w.terrain.Avoids (c.Owns w.terrain other) (Path.join c.canvasesFolder (room ++ ".json"))
  way : c.HasCanvas w other →
    w.terrain.Avoids (c.Unmade w) (Path.join c.canvasesFolder (room ++ ".json"))

/-- What belongs to another room is out of the way of an export that keeps off it. -/
theorem KeepsOff.overlooks (h : c.KeepsOff w room other) (hroom : IsRoomText room)
    (hother : IsRoomText other) (hne : room ≠ other)
    (hbeside : w.terrain.IsBeside c.scratchFolder c.templateFolder) :
    c.Overlooks w.terrain (c.Owns w.terrain other) room where
  scratch := h.scratch
  template := h.template
  below T hT names howns := by
    obtain ⟨ending, -, more, S, hS, heq⟩ := howns.exists_name
    have hbelow := (not_prefix_beside (c.exportName other ++ ending) (hbeside S T hS hT) names).2
    exact hbelow ⟨more, by rw [heq]; simp⟩
  own q hq names := not_owns_of_owns hroom hother hne hq names

end Config

/-! ## Runs -/

namespace Package

variable {c : Config} {store : Store} {room : String} {pages : List GeneratedPage}
variable {w v : Workspace}

theorem runOn_cleanUp_of_missing (hmissing : w.exists? (c.stagingFolder room) = false) :
    (cleanUp (c.stagingFolder room)).runOn w = (.ok (), w) := by
  unfold cleanUp
  rw [runOn_bind, runOn_look, hmissing]
  rfl

/-- Without a staging folder packing begins with making it, if the template is a folder. -/
theorem runOn_package_of_missing (htemplate : w.isFolder c.templateFolder = true)
    (hmissing : w.exists? (c.stagingFolder room) = false) :
    (package c room pages).runOn w = (do
      onPath (c.stagingFolder room) (makeFolders (c.stagingFolder room))
      build c room pages : ExportAction Unit).runOn w := by
  have hcheck : (checkTemplate c.templateFolder).runOn w = (.ok (), w) := by
    unfold checkTemplate
    rw [runOn_bind, runOn_look, htemplate]
    rfl
  have hclear : (clearStaging (c.stagingFolder room)).runOn w = (.ok (), w) := by
    unfold clearStaging
    rw [runOn_bind, runOn_look, hmissing]
    rfl
  rw [package_eq_build, runOn_bind, hcheck]
  dsimp only
  rw [runOn_bind, hclear]

/-- If the staging folder cannot be made and nothing has been made for it, packing fails and leaves
everything alone. -/
theorem runOnPages_of_make {fault : FileFault} (htemplate : w.isFolder c.templateFolder = true)
    (hmissing : w.exists? (c.stagingFolder room) = false)
    (hmake : (makeFolders (c.stagingFolder room)).runOn w = (.error fault, w)) (pages : List Page) :
    runOnPages c room pages w = (.error (.file (c.stagingFolder room) fault), w) := by
  unfold runOnPages conclude
  rw [runOn_package_of_missing htemplate hmissing, runOn_bind, onPath, runOn_mapError, hmake]
  dsimp only [Except.mapError]
  rw [runOn_cleanUp_of_missing hmissing]
  rfl

theorem runOnPages_of_no_template (htemplate : w.isFolder c.templateFolder = false)
    (hmissing : w.exists? (c.stagingFolder room) = false) (pages : List Page) :
    runOnPages c room pages w = (.error (.file c.templateFolder .templateMissing), w) := by
  have hcheck : (checkTemplate c.templateFolder).runOn w
      = (.error (.file c.templateFolder .templateMissing), w) := by
    unfold checkTemplate
    rw [runOn_bind, runOn_look, htemplate]
    rfl
  unfold runOnPages conclude
  rw [package_eq_build, runOn_bind, hcheck]
  dsimp only
  rw [runOn_cleanUp_of_missing hmissing]
  rfl

/-- An export leaves everything alone if there is no staging folder and making one only fails, or
there is no template. -/
theorem exportRoom_idle (hstore : store.IsLookup)
    (hmissing : w.exists? (c.stagingFolder room) = false)
    (hmake : w.isFolder c.templateFolder = true →
      ∃ fault, (makeFolders (c.stagingFolder room)).runOn w = (.error fault, w)) :
    ((exportRoom c store room).runOn w).2 = w := by
  rw [runOn_exportRoom hstore]
  cases ((store.pages room).runOn w).1 with
  | error e => rfl
  | ok pages =>
      dsimp only
      by_cases htemplate : w.isFolder c.templateFolder = true
      · obtain ⟨fault, hfault⟩ := hmake htemplate
        rw [runOnPages_of_make htemplate hmissing hfault]
      · rw [runOnPages_of_no_template (by simpa using htemplate) hmissing]

end Package

/-! ## Gaps -/

namespace Config

section

variable {c : Config} {room : String} {w : Workspace} {path : String}

/-- A path that leads to something comes by nothing that is still to be made. -/
theorem avoids_unmade_of_taken {place : List String} {entry : Entry}
    (h : w.resolve true path = .ok (.taken place entry)) : w.terrain.Avoids (c.Unmade w) path :=
  fun _ hq hunmade => Workspace.face?_of_comesBy h hq hunmade.2

/-- A canvas that can be loaded is a text in the room's file. -/
theorem HasCanvas.exists_text (h : c.HasCanvas w room) : ∃ text v,
    (readText (Path.join c.canvasesFolder (room ++ ".json"))).runOn w = (.ok text, v) := by
  obtain ⟨pages, hpages⟩ := h
  obtain ⟨found, between, hstore, hload⟩ := runOn_bind_eq_ok (Prod.ext hpages rfl)
  cases found with
  | none => cases congrArg Prod.fst hload
  | some canvas =>
      unfold Store.ofFolder canvasPath? at hstore
      by_cases hroom : isRoomCode room = true
      · rw [if_pos hroom] at hstore
        obtain ⟨result, after, hattempt, hresult⟩ := runOn_bind_eq_ok hstore
        rw [runOn_attempt] at hattempt
        obtain ⟨hread, rfl⟩ := Prod.mk.inj hattempt
        cases result with
        | ok text => exact ⟨text, _, Prod.ext (Except.ok.inj hread) rfl⟩
        | error fault => cases fault <;> cases congrArg Prod.fst hresult
      · rw [if_neg hroom] at hstore
        cases congrArg Prod.fst hstore

/-- So its path comes by nothing that is still to be made. -/
theorem HasCanvas.avoids_unmade (h : c.HasCanvas w room) :
    w.terrain.Avoids (c.Unmade w) (Path.join c.canvasesFolder (room ++ ".json")) := by
  obtain ⟨text, v, hread⟩ := h.exists_text
  obtain ⟨place, entry, hresolve⟩ := exists_taken_of_readText hread
  exact avoids_unmade_of_taken hresolve

end

variable {c : Config} {room : String} {w u : Workspace} {place names : List String}
variable (h : c.Grounded w.terrain room)
include h

/-- A room's export leaves everything alone if the scratch folder's path leads to no folder and has
no gap: then nothing can be made. -/
theorem idle_of_blocked {store : Store} (hstore : store.IsLookup) (hfirm : w.IsFirm c.scratchFolder)
    (hleads : ¬ ∃ S, w.Leads (Path.wholeWay c.scratchFolder) S)
    (hgap : ¬ ∃ place names, w.Gap c.scratchFolder place names) :
    ((exportRoom c store room).runOn w).2 = w := by
  have hparts := Path.parts_proper h.staging
  have hmissing : w.exists? (c.stagingFolder room) = false := by
    rw [← Bool.not_eq_true, Workspace.exists?_eq_true_iff]
    rintro ⟨place, entry, hresolve⟩
    obtain ⟨S, hS, -⟩ :=
      Workspace.exists_leads_of_join (by simpa [hparts] using h.staging) hresolve
    exact hleads ⟨S, hS⟩
  refine exportRoom_idle hstore hmissing fun _ => ?_
  have hne : c.stagingFolder room ≠ "" := Path.join_ne_empty _ h.staging.ne_empty
  cases hmake : (makeFolders (c.stagingFolder room)).runOn w with
  | mk made v =>
      rcases makeFolders_idle_or_free hne hmake with
        ⟨rfl, hfound⟩ | ⟨-, p, hp, place, n, asFolder, hfree⟩
      · cases made with
        | error fault => exact ⟨fault, rfl⟩
        | ok _ =>
            obtain ⟨q, children, hresolve⟩ := Workspace.isFolder_eq_true_iff.mp (hfound rfl)
            rw [Workspace.exists?_eq_true_iff.mpr ⟨q, _, hresolve⟩] at hmissing
            cases hmissing
      · rcases Workspace.exists_leads_or_gap hfirm (by simpa [hparts] using h.staging) hp hfree
          with hthere | hlack
        · exact absurd hthere hleads
        · exact absurd hlack hgap

/-- Where the scratch folder's path has a gap there is no staging folder, whatever of the way has
been made. -/
theorem exists?_staging_of_gap {more : List String} (hgap : w.Gap c.scratchFolder place names)
    (hu : OpensWay place more w u) (hmore : more <+: names) :
    u.exists? (c.stagingFolder room) = false := by
  have haim : u.terrain.aim true (c.stagingFolder room)
      = some (place ++ names ++ [c.exportName room]) := by
    rw [hu.alters.terrain]
    exact h.aim_staging hgap.aim
  refine Workspace.exists?_eq_false haim ?_
  rcases hu.alters.face (place ++ names ++ [c.exportName room]) id with
    hsame | ⟨⟨front, hfront, -, heq⟩, -, -⟩
  · rw [hsame]
    exact hgap.face?_eq_none (List.prefix_refl _) hgap.nonempty _
  · rw [List.append_assoc] at heq
    have hlength := (hfront.trans hmore).length_le
    rw [← List.append_cancel_left heq, List.length_append, List.length_singleton] at hlength
    omega

theorem exists?_staging_before (hgap : w.Gap c.scratchFolder place names) :
    w.exists? (c.stagingFolder room) = false := by
  have hhere : OpensWay place [] w w := .refl (by simpa using hgap.folder)
  exact exists?_staging_of_gap h hgap hhere List.nil_prefix

/-- No workspace takes the path of the staging folder, or that is further down the way. -/
theorem refused_or_descent (hgap : w.Gap c.scratchFolder place names) :
    (∃ fault, ∀ v, (makeFolders (c.stagingFolder room)).runOn v = (.error fault, v))
      ∨ w.Descent place (names ++ [c.exportName room]) (c.stagingFolder room)
        ∧ (c.stagingFolder room).utf8ByteSize ≤ maxPathBytes := by
  by_cases hrefused : '\x00' ∈ (c.stagingFolder room).toList
      ∨ maxPathBytes < (c.stagingFolder room).utf8ByteSize
  · exact .inl (exists_fault_of_refused (Path.join_ne_empty _ h.staging.ne_empty) hrefused)
  · obtain ⟨hnul, hbytes⟩ := not_or.mp hrefused
    exact .inr ⟨hgap.descent h.staging hnul, Nat.not_lt.mp hbytes⟩

/-- **It makes no difference to an export whether the way has been made before**, if the template
is there and the canvas is not to be found by way of what was missing. -/
theorem matches_exportRoom (htidy : w.top.Tidy) (hgap : w.Gap c.scratchFolder place names)
    (hu : OpensWay place (shortNames names) w u) (htemplate : w.isFolder c.templateFolder = true)
    (hcanvas : w.terrain.Avoids (c.Unmade w) (Path.join c.canvasesFolder (room ++ ".json"))) :
    Matches (exportRoom c (Store.ofFolder c.canvasesFolder) room) w u := by
  have hstore := Store.isLookup_ofFolder c.canvasesFolder
  have hshorter : shortNames names <+: names := List.takeWhile_prefix _
  have hmissing := exists?_staging_before h hgap
  have hmissing' := exists?_staging_of_gap h hgap hu hshorter
  have halike : w.Alike w.terrain (c.Unmade w) u := by
    refine hu.alters.alike htidy ?_
    rintro q (hnone | ⟨front, hfront, hfrontNe, rfl⟩)
    · exact hnone.elim
    · have hgone := hgap.face?_eq_none (hfront.trans hshorter) hfrontNe []
      rw [List.append_nil] at hgone
      exact ⟨hgap.leadsThrough (hfront.trans hshorter), hgone⟩
  have htemplate' : u.isFolder c.templateFolder = true := by
    obtain ⟨place, children, hresolve⟩ := Workspace.isFolder_eq_true_iff.mp htemplate
    rw [halike.isFolder (avoids_unmade_of_taken hresolve), htemplate]
  have hpages := (ignores_pages hcanvas w u halike).1
  unfold Matches
  rw [runOn_exportRoom hstore, runOn_exportRoom hstore, hpages]
  cases (((Store.ofFolder c.canvasesFolder).pages room).runOn w).1 with
  | error e => exact .inr ⟨_, rfl, rfl⟩
  | ok pages =>
      dsimp only
      rcases refused_or_descent h hgap with ⟨fault, hfault⟩ | ⟨hdescent, hbytes⟩
      · exact .inr ⟨_, runOnPages_of_make htemplate hmissing (hfault w) pages,
          runOnPages_of_make htemplate' hmissing' (hfault u) pages⟩
      · have hmake : (makeFolders (c.stagingFolder room)).runOn u
            = (makeFolders (c.stagingFolder room)).runOn w :=
          (runOn_makeFolders_opened hdescent (hgap.isOpenWay [c.exportName room]) htidy hbytes hu).1
        refine .inl ?_
        unfold runOnPages
        rw [runOn_package_of_missing htemplate hmissing,
          runOn_package_of_missing htemplate' hmissing', runOn_bind, runOn_bind, onPath,
          runOn_mapError, runOn_mapError, hmake]

/-- If a name on the way is too long an export makes the way up to there, and once that has been
made it leaves everything alone. -/
theorem idle_of_long {store : Store} (hstore : store.IsLookup) (htidy : w.top.Tidy)
    (hgap : w.Gap c.scratchFolder place names) (hu : OpensWay place (shortNames names) w u)
    (hlong : ¬ ∀ n ∈ names, IsShort n) : ((exportRoom c store room).runOn u).2 = u := by
  refine exportRoom_idle hstore
    (exists?_staging_of_gap h hgap hu (List.takeWhile_prefix _)) fun _ => ?_
  rcases refused_or_descent h hgap with ⟨fault, hfault⟩ | ⟨hdescent, hbytes⟩
  · exact ⟨fault, hfault u⟩
  · have hopen := hgap.isOpenWay [c.exportName room]
    exact ⟨_, (runOn_makeFolders_opened hdescent hopen htidy hbytes hu).2 hlong⟩

/-- The way can be made, unless no workspace takes the path of the staging folder: then an export
leaves everything alone. -/
theorem exists_opensWay_or_idle {store : Store} (hstore : store.IsLookup)
    (hgap : w.Gap c.scratchFolder place names) :
    (∃ u, OpensWay place (shortNames names) w u) ∨ ((exportRoom c store room).runOn w).2 = w := by
  rcases refused_or_descent h hgap with ⟨fault, hfault⟩ | ⟨hdescent, hbytes⟩
  · have hmissing := exists?_staging_before h hgap
    exact .inr (exportRoom_idle hstore hmissing fun _ => ⟨fault, hfault w⟩)
  · obtain ⟨parents, -, hparent⟩ := hdescent.exists_ancestors 0 hbytes
    obtain ⟨parent, -, hway, hshorter⟩ := hparent hgap.nonempty
    have hopen : IsOpenWay w.top place names := by
      have hself := hgap.isOpenWay []
      rwa [List.append_nil] at hself
    obtain ⟨u, -, hu⟩ := exists_makeFolders hway hopen hshorter
    exact .inl ⟨u, hu⟩

end Config

/-! ## Workspaces without links -/

namespace Config

variable {c : Config} {w : Workspace} {room other : String}

/-- Where there are no links a room's canvas is the file of that name in the canvases folder. -/
theorem canvas_of_linkless (hroom : isRoomCode room = true)
    (hlinks : ∀ q, w.terrain.links q = none) (hdots : ".." ∉ Path.steps c.canvasesFolder)
    {C : List String} (hC : w.terrain.aim true c.canvasesFolder = some C) :
    ".." ∉ Path.steps (Path.join c.canvasesFolder (room ++ ".json"))
      ∧ w.terrain.aim true (Path.join c.canvasesFolder (room ++ ".json"))
        = some (C ++ [room ++ ".json"]) := by
  have hname := proper_canvasFile hroom
  have hparts := Path.parts_proper hname
  have hproper : ∀ n ∈ Path.parts (room ++ ".json"), ProperName n := by simpa [hparts] using hname
  constructor
  · rw [Path.steps_join _ hproper, hparts, List.mem_append, List.mem_singleton]
    exact not_or.mpr ⟨hdots, hname.ne_dots.symm⟩
  · rw [Terrain.aim_join hproper fun _ _ _ _ _ => hlinks _, hC, hparts]
    rfl

/-- If a folder is not in the scratch folder, nothing that belongs to a room is on the way to a name
in it. -/
theorem not_owns_above {S T : List String} {n : String} {t : Terrain} {q : List String}
    (hS : t.aim true c.scratchFolder = some S) (hST : ¬ S <+: T) (hq : q <+: T ++ [n]) :
    ¬ c.Owns t room q := by
  intro hown
  obtain ⟨ending, -, more, S', hS', rfl⟩ := hown.exists_name
  obtain rfl := Option.some.inj (hS.symm.trans hS')
  rcases List.prefix_concat_iff.mp ((List.prefix_append _ _).trans hq) with heq | hin
  · have hlength := hq.length_le
    rw [← heq, List.length_append, List.length_cons] at hlength
    omega
  · exact hST hin

/-- **Without links and without going up** exports keep off each other, if the scratch folder is
beside the template and beside the canvases. -/
theorem KeepsOff.of_linkless (hroom : isRoomCode room = true) (hother : isRoomCode other = true)
    (htop : w.top.isLinkless = true) (hscratch : ".." ∉ Path.steps c.scratchFolder)
    (htemplate : ".." ∉ Path.steps c.templateFolder)
    (hcanvases : ".." ∉ Path.steps c.canvasesFolder)
    (hbeside : w.terrain.IsBeside c.scratchFolder c.templateFolder)
    (hbeside' : w.terrain.IsBeside c.scratchFolder c.canvasesFolder) :
    c.KeepsOff w room other := by
  have hlinks : ∀ q, w.terrain.links q = none := Workspace.links_of_isLinkless htop
  have hS := Terrain.aim_of_linkless hlinks hscratch
  have hT := Terrain.aim_of_linkless hlinks htemplate
  have hC := Terrain.aim_of_linkless hlinks hcanvases
  obtain ⟨hdots, haim⟩ := canvas_of_linkless hroom hlinks hcanvases hC
  obtain ⟨-, haim'⟩ := canvas_of_linkless hother hlinks hcanvases hC
  refine ⟨fun q hq => ?_, fun q hq => ?_, fun q hq => ?_, fun hcanvas q hq hunmade => ?_⟩
  · intro hown
    obtain ⟨ending, -, more, S, hS', rfl⟩ := hown.exists_name
    have hlength := (Terrain.prefix_of_comesBy hlinks hscratch hS' hq).length_le
    rw [List.length_append, List.length_cons] at hlength
    omega
  · have habove := Terrain.prefix_of_comesBy hlinks htemplate hT hq
    exact not_owns_above hS (hbeside _ _ hS hT).1 (habove.trans (List.prefix_append _ [""]))
  · have habove := Terrain.prefix_of_comesBy hlinks hdots haim hq
    exact not_owns_above hS (hbeside' _ _ hS hC).1 habove
  · obtain ⟨hleads, hmissing⟩ := hunmade
    have habove := Terrain.prefix_of_comesBy hlinks hscratch hS
      (Terrain.comesBy_of_leadsThrough hleads)
    have hin := Terrain.prefix_of_comesBy hlinks hdots haim hq
    rcases List.prefix_concat_iff.mp hin with rfl | hin
    · exact (hbeside' _ _ hS hC).2 ((List.prefix_append _ _).trans habove)
    · -- The other room's canvas is below what is above the canvases folder, so that is there.
      obtain ⟨text, v, hread⟩ := hcanvas.exists_text
      obtain ⟨back, hback⟩ := hin.trans (List.prefix_append _ [other ++ ".json"])
      have hgone := Workspace.face?_below_missing hmissing back
      rw [hback, face?_of_readText hread haim'] at hgone
      cases hgone

end Config

/-! ## Exports -/

section

variable {c : Config} {w : Workspace} {room other : String}

/-- Exports of different rooms commute where the scratch folder is there. -/
theorem commutes_exportRoom_of_leads {S : List String} (hc : c.fault? = none)
    (hroom : IsRoomText room) (hother : IsRoomText other) (hne : room ≠ other)
    (htidy : w.top.Tidy) (hplain : w.terrain.IsPlain c.scratchFolder)
    (hleads : w.Leads (Path.wholeWay c.scratchFolder) S)
    (hover : c.Overlooks w.terrain (c.Owns w.terrain other) room)
    (hover' : c.Overlooks w.terrain (c.Owns w.terrain room) other)
    (hcanvas : w.terrain.Avoids (c.Owns w.terrain other)
      (Path.join c.canvasesFolder (room ++ ".json")))
    (hcanvas' : w.terrain.Avoids (c.Owns w.terrain room)
      (Path.join c.canvasesFolder (other ++ ".json"))) :
    Commutes (exportRoom c (Store.ofFolder c.canvasesFolder) room)
      (exportRoom c (Store.ofFolder c.canvasesFolder) other) w := by
  have hstore := Store.isLookup_ofFolder c.canvasesFolder
  have h := Config.grounded hc hroom hplain
  have h' := Config.grounded hc hother hplain
  refine commutes_of_apart htidy (h.does_exportRoom hstore) (h'.does_exportRoom hstore)
    (hover.ignores_exportRoom h hcanvas) (hover'.ignores_exportRoom h' hcanvas') ?_ ?_
  · intro q hq
    simpa using Config.not_owns_of_owns hroom hother hne hq []
  · intro q hq
    have hcomes := Terrain.comesBy_of_leadsThrough hq
    exact ⟨hleads.face?_ne_none hq, hover'.scratch q hcomes, hover.scratch q hcomes⟩

/-- Without a canvas an export leaves everything alone. -/
theorem idle_of_no_canvas (hcanvas : ¬ c.HasCanvas w room) :
    ((exportRoom c (Store.ofFolder c.canvasesFolder) room).runOn w).2 = w := by
  rw [runOn_exportRoom (Store.isLookup_ofFolder c.canvasesFolder)]
  cases hpages : (((Store.ofFolder c.canvasesFolder).pages room).runOn w).1 with
  | error e => rfl
  | ok pages => exact absurd ⟨pages, hpages⟩ hcanvas

/-- Exports of different rooms commute where there is a gap on the way to the scratch folder: what
the first of them makes there makes no difference to either. -/
theorem commutes_exportRoom_of_gap {place names : List String} (hc : c.fault? = none)
    (hroom : IsRoomText room) (hother : IsRoomText other) (hne : room ≠ other)
    (htidy : w.top.Tidy) (hplain : w.terrain.IsPlain c.scratchFolder)
    (hbeside : w.terrain.IsBeside c.scratchFolder c.templateFolder)
    (hgap : w.Gap c.scratchFolder place names)
    (hkeeps : c.KeepsOff w room other) (hkeeps' : c.KeepsOff w other room) :
    Commutes (exportRoom c (Store.ofFolder c.canvasesFolder) room)
      (exportRoom c (Store.ofFolder c.canvasesFolder) other) w := by
  have hstore := Store.isLookup_ofFolder c.canvasesFolder
  have h := Config.grounded hc hroom hplain
  have h' := Config.grounded hc hother hplain
  by_cases htemplate : w.isFolder c.templateFolder = true
  swap
  · have hmissing := Config.exists?_staging_before h hgap
    have hmissing' := Config.exists?_staging_before h' hgap
    exact commutes_of_idle (exportRoom_idle hstore hmissing fun hyes => absurd hyes htemplate)
      (exportRoom_idle hstore hmissing' fun hyes => absurd hyes htemplate)
  by_cases hcanvases : c.HasCanvas w room ∨ c.HasCanvas w other
  swap
  · obtain ⟨hnone, hnone'⟩ := not_or.mp hcanvases
    exact commutes_of_idle (idle_of_no_canvas hnone) (idle_of_no_canvas hnone')
  have hway := hcanvases.elim Config.HasCanvas.avoids_unmade hkeeps.way
  have hway' := hcanvases.elim hkeeps'.way Config.HasCanvas.avoids_unmade
  -- Either export makes the same way, if that can be made at all.
  have hopen : (∃ u, OpensWay place (shortNames names) w u)
      ∨ Commutes (exportRoom c (Store.ofFolder c.canvasesFolder) room)
        (exportRoom c (Store.ofFolder c.canvasesFolder) other) w := by
    rcases Config.exists_opensWay_or_idle h hstore hgap with hopen | hidle
    · exact .inl hopen
    · rcases Config.exists_opensWay_or_idle h' hstore hgap with hopen | hidle'
      · exact .inl hopen
      · exact .inr (commutes_of_idle hidle hidle')
  obtain ⟨u, hu⟩ | hdone := hopen
  swap
  · exact hdone
  refine Commutes.of_matches ?_ (Config.matches_exportRoom h htidy hgap hu htemplate hway)
    (Config.matches_exportRoom h' htidy hgap hu htemplate hway')
  by_cases hshort : ∀ n ∈ names, IsShort n
  · rw [shortNames_eq_self hshort] at hu
    have hover := hkeeps.overlooks hroom hother hne hbeside
    have hover' := hkeeps'.overlooks hother hroom hne.symm hbeside
    have hcanvas := hkeeps.canvas
    have hcanvas' := hkeeps'.canvas
    rw [← hu.alters.terrain] at hplain hover hover' hcanvas hcanvas'
    exact commutes_exportRoom_of_leads hc hroom hother hne (hu.alters.tidy htidy) hplain
      (hgap.leads_of_opensWay hu hshort) hover hover' hcanvas hcanvas'
  · exact commutes_of_idle (Config.idle_of_long h hstore htidy hgap hu hshort)
      (Config.idle_of_long h' hstore htidy hgap hu hshort)

/-- **Exports of different rooms do not interfere.** In either order each room has the same result,
be it a report or an error, and the same workspace is left behind, if neither export comes by what
the other may change and the path of the scratch folder goes up from things that are there only. -/
theorem commutes_exportRoom (hc : c.fault? = none) (hroom : isRoomCode room = true)
    (hother : isRoomCode other = true) (hne : room ≠ other) (htidy : w.top.Tidy)
    (hplain : w.terrain.IsPlain c.scratchFolder)
    (hbeside : w.terrain.IsBeside c.scratchFolder c.templateFolder)
    (hfirm : w.IsFirm c.scratchFolder) (hkeeps : c.KeepsOff w room other)
    (hkeeps' : c.KeepsOff w other room) :
    Commutes (exportRoom c (Store.ofFolder c.canvasesFolder) room)
      (exportRoom c (Store.ofFolder c.canvasesFolder) other) w := by
  have hstore := Store.isLookup_ofFolder c.canvasesFolder
  have htext := isRoomText_of_isRoomCode hroom
  have htext' := isRoomText_of_isRoomCode hother
  have h := Config.grounded hc htext hplain
  have h' := Config.grounded hc htext' hplain
  by_cases hleads : ∃ S, w.Leads (Path.wholeWay c.scratchFolder) S
  · obtain ⟨S, hS⟩ := hleads
    exact commutes_exportRoom_of_leads hc htext htext' hne htidy hplain hS
      (hkeeps.overlooks htext htext' hne hbeside) (hkeeps'.overlooks htext' htext hne.symm hbeside)
      hkeeps.canvas hkeeps'.canvas
  by_cases hlack : ∃ place names, w.Gap c.scratchFolder place names
  · obtain ⟨place, names, hgap⟩ := hlack
    exact commutes_exportRoom_of_gap hc htext htext' hne htidy hplain hbeside hgap hkeeps hkeeps'
  · exact commutes_of_idle (Config.idle_of_blocked h hstore hfirm hleads hlack)
      (Config.idle_of_blocked h' hstore hfirm hleads hlack)

/-- Two canvases and a template, but no scratch folder. -/
def twoCanvases : Workspace where
  top := .folder [
    ("canvases", .folder [
      ("a.json", .file homeCanvas.toUTF8), ("b.json", .file homeCanvas.toUTF8)]),
    ("templates", .folder [("flutter", smallProject emptyRoutes)])]
  here := []

theorem commutes_exportRoom_twoCanvases :
    ({} : Config).fault? = none ∧ twoCanvases.top.Tidy
      ∧ twoCanvases.exists? ({} : Config).scratchFolder = false
      ∧ Commutes (exportRoom {} (Store.ofFolder ({} : Config).canvasesFolder) "a")
        (exportRoom {} (Store.ofFolder ({} : Config).canvasesFolder) "b") twoCanvases := by
  have hconfig : ({} : Config).fault? = none := by decide +kernel
  have htidy : twoCanvases.top.Tidy := tidy_of_isTidy _ (by decide +kernel)
  have htop : twoCanvases.top.isLinkless = true := by decide +kernel
  have hscratch : ".." ∉ Path.steps ({} : Config).scratchFolder := by decide +kernel
  have htemplate : ".." ∉ Path.steps ({} : Config).templateFolder := by decide +kernel
  have hcanvases : ".." ∉ Path.steps ({} : Config).canvasesFolder := by decide +kernel
  have hlinks := Workspace.links_of_isLinkless htop
  have hS := Terrain.aim_of_linkless hlinks hscratch
  have hbeside : twoCanvases.terrain.IsBeside ({} : Config).scratchFolder
      ({} : Config).templateFolder := by
    intro S T hS' hT
    rw [Terrain.aim_of_linkless hlinks htemplate] at hT
    obtain rfl := Option.some.inj (hS.symm.trans hS')
    obtain rfl := Option.some.inj hT
    decide +kernel
  have hbeside' : twoCanvases.terrain.IsBeside ({} : Config).scratchFolder
      ({} : Config).canvasesFolder := by
    intro S C hS' hC
    rw [Terrain.aim_of_linkless hlinks hcanvases] at hC
    obtain rfl := Option.some.inj (hS.symm.trans hS')
    obtain rfl := Option.some.inj hC
    decide +kernel
  refine ⟨hconfig, htidy, Workspace.exists?_eq_false hS (by decide +kernel), ?_⟩
  exact commutes_exportRoom hconfig (by decide) (by decide) (by decide) htidy
    (fun _ _ _ _ => hlinks _) hbeside (Workspace.isFirm_of_no_dots hscratch)
    (.of_linkless (by decide) (by decide) htop hscratch htemplate hcanvases hbeside hbeside')
    (.of_linkless (by decide) (by decide) htop hscratch htemplate hcanvases hbeside hbeside')

/-- A canvas that is a link to a file in the staging folder of another room. -/
def linkedCanvas : Workspace where
  top := .folder [
    ("canvases", .folder [
      ("a.json", .file "[]".toUTF8), ("b.json", .link "../tmp-export/flutter-a/x")]),
    ("tmp-export", .folder [("flutter-a", .folder [("x", .file "[]".toUTF8)])])]
  here := []

/-- Links may lead from one room's canvas to what an export of another removes. -/
theorem not_commutes_exportRoom_linkedCanvas :
    ({} : Config).fault? = none ∧ isRoomCode "a" = true ∧ isRoomCode "b" = true ∧ "a" ≠ "b"
      ∧ linkedCanvas.top.Tidy ∧ linkedCanvas.terrain.IsPlain ({} : Config).scratchFolder
      ∧ linkedCanvas.terrain.IsBeside ({} : Config).scratchFolder ({} : Config).templateFolder
      ∧ linkedCanvas.terrain.IsBeside ({} : Config).scratchFolder ({} : Config).canvasesFolder
      ∧ ¬ Commutes (exportRoom {} (Store.ofFolder ({} : Config).canvasesFolder) "a")
        (exportRoom {} (Store.ofFolder ({} : Config).canvasesFolder) "b") linkedCanvas := by
  have hS : linkedCanvas.terrain.aim true ({} : Config).scratchFolder = some ["tmp-export"] :=
    Terrain.aim_name (by decide) (by decide)
  have hC : linkedCanvas.terrain.aim true ({} : Config).canvasesFolder = some ["canvases"] :=
    Terrain.aim_name (by decide) (by decide)
  have hT : linkedCanvas.terrain.aim true ({} : Config).templateFolder
      = some ["templates", "flutter"] := by
    have hfolder : linkedCanvas.terrain.aim true "templates" = some ["templates"] :=
      Terrain.aim_name (by decide) (by decide)
    have hparts : Path.parts "flutter" = ["flutter"] := Path.parts_proper (by decide)
    have hjoin : ({} : Config).templateFolder = Path.join "templates" "flutter" := by decide +kernel
    rw [hjoin, Terrain.aim_join (by decide +kernel), hfolder, hparts]
    · rfl
    · intro q hq
      obtain rfl := Option.some.inj (hfolder.symm.trans hq)
      exact Workspace.isClear_of_missing (by decide +kernel) _
  have hplain : linkedCanvas.terrain.IsPlain ({} : Config).scratchFolder := by
    refine Terrain.isPlain_of_isLinkless hS fun entry hentry => ?_
    obtain rfl : Entry.folder [("flutter-a", .folder [("x", .file "[]".toUTF8)])] = entry :=
      Option.some.inj hentry
    rfl
  have hbeside : ∀ {folder place}, linkedCanvas.terrain.aim true folder = some place →
      ¬ ["tmp-export"] <+: place ∧ ¬ place <+: ["tmp-export"] →
      linkedCanvas.terrain.IsBeside ({} : Config).scratchFolder folder := by
    intro folder place haim hapart S T hS' hT'
    obtain rfl := Option.some.inj (hS.symm.trans hS')
    obtain rfl := Option.some.inj (haim.symm.trans hT')
    exact hapart
  refine ⟨by decide +kernel, by decide, by decide, by decide, tidy_of_isTidy _ (by decide +kernel),
    hplain, hbeside hT (by decide), hbeside hC (by decide), fun hcommutes => ?_⟩
  have hbefore : ((exportRoom {} (Store.ofFolder ({} : Config).canvasesFolder) "b").runOn
      linkedCanvas).1 = .error (.file "templates/flutter" .templateMissing) := by
    delta exportRoom package stageTemplate cleanUp removeTree removeFolder Store.pages
      Store.ofFolder readText readBytes FileAction.resolve Workspace.isFolder Workspace.isLink
      Workspace.exists? Workspace.entry? Workspace.resolve
    rw [Workspace.walk_eq_walkBy]
    decide +kernel
  -- The failed export of the first room has removed its staging folder.
  have hafter : ((exportRoom {} (Store.ofFolder ({} : Config).canvasesFolder) "b").runOn
      ((exportRoom {} (Store.ofFolder ({} : Config).canvasesFolder) "a").runOn linkedCanvas).2).1
        = .error (.noCanvas "b") := by
    delta exportRoom package stageTemplate cleanUp removeTree removeFolder Store.pages
      Store.ofFolder readText readBytes FileAction.resolve Workspace.isFolder Workspace.isLink
      Workspace.exists? Workspace.entry? Workspace.resolve
    rw [Workspace.walk_eq_walkBy]
    decide +kernel
  cases hafter.symm.trans (hcommutes.second.trans hbefore)

end

end CanvasFlutter
