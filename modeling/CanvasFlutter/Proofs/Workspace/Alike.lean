import CanvasFlutter.Proofs.Workspace.Outcome
import CanvasFlutter.Proofs.Workspace.Tour
import CanvasFlutter.Proofs.Workspace.Removal

namespace CanvasFlutter

/-!
# `CanvasFlutter.Proofs.Workspace.Alike` — workspaces that differ at hidden places only

An action that comes by no hidden place does the same whatever is hidden there: it has the same
result, and what it leaves behind differs at hidden places only. Each file operation ignores what
its path avoids, and so does a sequence of such operations.

## Contents
- **Likeness.** `Workspace.Alike`, `Terrain.Avoids`.
- **Actions.** `FileAction.Ignores`, and how it goes through sequences.
- **File operations.** `ignores_readBytes`, `ignores_listFolder`, `ignores_makeFolders`, ...
-/

open Entry

/-! ## Likeness -/

/-- A path comes by no hidden place. -/
def Terrain.Avoids (t : Terrain) (hidden : List String → Prop) (path : String) : Prop :=
  ∀ q, t.ComesBy path q → ¬ hidden q

namespace Terrain.Avoids

variable {t : Terrain} {hidden : List String → Prop} {folder path : String}

theorem parent {parent : String} (h : t.Avoids hidden path)
    (hparent : Path.parent? path = some parent) : t.Avoids hidden parent := by
  intro q hq
  obtain ⟨⟨last, hsteps, -, -⟩, habsolute⟩ := Path.steps_parent hparent
  exact h q (comesBy_of_steps ⟨last, hsteps.symm⟩ habsolute hq)

theorem dropSlashes (h : t.Avoids hidden path) :
    Path.dropSlashes path = "" ∨ t.Avoids hidden (Path.dropSlashes path) := by
  refine (Path.steps_dropSlashes path).imp_right fun ⟨hsteps, habsolute⟩ q hq => h q ?_
  exact comesBy_of_steps (by rw [hsteps]) habsolute hq

/-- A path within a folder without links, in which it meets nothing that is hidden. -/
theorem join (h : t.Avoids hidden folder) (hpath : ∀ n ∈ Path.parts path, ProperName n)
    (hclear : ∀ p, t.aim true folder = some p → t.IsClear p (Path.parts path))
    (hbelow : ∀ p front, t.aim true folder = some p → front <+: Path.parts path → front ≠ [] →
      ¬ hidden (p ++ front)) : t.Avoids hidden (Path.join folder path) := by
  intro q hq
  obtain hfolder | ⟨p, front, haim, hfront, hne, rfl⟩ := comesBy_join hpath hclear hq
  · exact h q hfolder
  · exact hbelow p front haim hfront hne

end Terrain.Avoids

namespace Workspace

/-- Two workspaces that may differ at hidden places and nowhere else. -/
structure Alike (t : Terrain) (hidden : List String → Prop) (w v : Workspace) : Prop where
  terrain : w.terrain = t ∧ v.terrain = t
  tidy : w.top.Tidy ∧ v.top.Tidy
  face : ∀ q, ¬ hidden q → v.top.face? q = w.top.face? q

variable {t : Terrain} {may make hidden : List String → Prop} {w v : Workspace} {path : String}

theorem Alters.alike (h : w.Alters may make v) (htidy : w.top.Tidy)
    (hhidden : ∀ q, may q ∨ make q → hidden q) : w.Alike w.terrain hidden v where
  terrain := ⟨rfl, h.terrain⟩
  tidy := ⟨htidy, h.tidy htidy⟩
  face q hq := (h.face q fun hmay => hq (hhidden q (.inl hmay))).resolve_right
    fun hmake => hq (hhidden q (.inr hmake.1))

/-- **A path that avoids what is hidden** leads nowhere for the same reason, to the same free name,
or to the same place and what shows the same face there. -/
theorem Alike.resolve_cases (h : w.Alike t hidden v) (hpath : t.Avoids hidden path)
    (follow : Bool) :
    (∃ fault, w.resolve follow path = .error fault ∧ v.resolve follow path = .error fault)
      ∨ (∃ place name asFolder, w.resolve follow path = .ok (.free place name asFolder)
        ∧ v.resolve follow path = .ok (.free place name asFolder))
      ∨ ∃ place entry other, w.resolve follow path = .ok (.taken place entry)
        ∧ v.resolve follow path = .ok (.taken place other) ∧ other.face = entry.face := by
  obtain ⟨hw, hv⟩ := h.terrain
  have hhere : v.here = w.here := congrArg Terrain.here (hv.trans hw.symm)
  have hsame := sameSpot_resolve hhere (fun p hp => h.face p (hpath p (hw ▸ hp))) follow
  generalize w.resolve follow path = a at hsame ⊢
  generalize v.resolve follow path = b at hsame ⊢
  cases hsame with
  | error fault => exact .inl ⟨fault, rfl, rfl⟩
  | free place name asFolder => exact .inr (.inl ⟨place, name, asFolder, rfl, rfl⟩)
  | taken place hface => exact .inr (.inr ⟨place, _, _, rfl, rfl, hface⟩)

theorem Alike.exists? (h : w.Alike t hidden v) (hpath : t.Avoids hidden path) :
    v.exists? path = w.exists? path := by
  unfold Workspace.exists? Workspace.entry?
  rcases h.resolve_cases hpath true with
    ⟨fault, hw, hv⟩ | ⟨place, name, asFolder, hw, hv⟩ | ⟨place, entry, other, hw, hv, -⟩
  · rw [hw, hv]
  · rw [hw, hv]
  · rw [hw, hv]
    rfl

theorem Alike.isSame {other : String} (h : w.Alike t hidden v) (hpath : t.Avoids hidden path)
    (hother : t.Avoids hidden other) : v.isSame path other = w.isSame path other := by
  unfold Workspace.isSame
  rcases h.resolve_cases hpath true with
    ⟨fault, hw, hv⟩ | ⟨place, name, asFolder, hw, hv⟩ | ⟨place, entry, entry', hw, hv, -⟩
  · rw [hw, hv]
  · rw [hw, hv]
  · rcases h.resolve_cases hother true with
      ⟨fault, hw', hv'⟩ | ⟨place', name, asFolder, hw', hv'⟩ | ⟨place', found, found', hw', hv', -⟩
    all_goals rw [hw, hv, hw', hv']

theorem Alike.isLink (h : w.Alike t hidden v) (hpath : t.Avoids hidden path) :
    v.isLink path = w.isLink path := by
  unfold Workspace.isLink
  rcases h.resolve_cases hpath false with
    ⟨fault, hw, hv⟩ | ⟨place, name, asFolder, hw, hv⟩ | ⟨place, entry, other, hw, hv, hface⟩
  · rw [hw, hv]
  · rw [hw, hv]
  · rw [hw, hv]
    cases entry <;> cases other <;> first | rfl | cases hface

theorem Alike.isFolder (h : w.Alike t hidden v) (hpath : t.Avoids hidden path) :
    v.isFolder path = w.isFolder path := by
  unfold Workspace.isFolder Workspace.entry?
  rcases h.resolve_cases hpath true with
    ⟨fault, hw, hv⟩ | ⟨place, name, asFolder, hw, hv⟩ | ⟨place, entry, other, hw, hv, hface⟩
  · rw [hw, hv]
  · rw [hw, hv]
  · rw [hw, hv]
    cases entry <;> cases other <;> first | rfl | cases hface

end Workspace

/-! ## Actions -/

namespace FileAction

variable {ε δ α β : Type} {t : Terrain} {may make hidden : List String → Prop}
variable {action : FileAction ε α} {post : α → Prop} {path : String}

/-- On workspaces that are alike an action has the same result, which is as promised, and leaves
workspaces that are alike. -/
def Ignores (t : Terrain) (hidden : List String → Prop) (action : FileAction ε α)
    (post : α → Prop) : Prop :=
  ∀ w v, w.Alike t hidden v → (action.runOn v).1 = (action.runOn w).1
    ∧ (action.runOn w).2.Alike t hidden (action.runOn v).2
    ∧ ∀ a, (action.runOn w).1 = .ok a → post a

theorem ignores_pure {a : α} (h : post a) : Ignores t hidden (pure a : FileAction ε α) post :=
  fun _ _ halike => ⟨rfl, halike, fun _ hb => Except.ok.inj hb ▸ h⟩

theorem ignores_throw (e : ε) : Ignores t hidden (throw e : FileAction ε α) post :=
  fun _ _ halike => ⟨rfl, halike, fun _ hb => by cases hb⟩

theorem ignores_look {f : Workspace → α} (h : ∀ w v, w.Alike t hidden v → f v = f w) :
    Ignores t hidden (look f : FileAction ε α) fun _ => True :=
  fun w v halike => ⟨congrArg Except.ok (h w v halike), halike, fun _ _ => trivial⟩

theorem Ignores.bind {next : α → FileAction ε β} {post' : β → Prop}
    (h : Ignores t hidden action post) (hnext : ∀ a, post a → Ignores t hidden (next a) post') :
    Ignores t hidden (action >>= next) post' := by
  intro w v halike
  obtain ⟨hresult, hafter, hpost⟩ := h w v halike
  rw [runOn_bind, runOn_bind]
  cases hw : action.runOn w with
  | mk first w₁ =>
      cases hv : action.runOn v with
      | mk second v₁ =>
          rw [hw, hv] at hresult hafter
          rw [hw] at hpost
          obtain rfl : second = first := hresult
          cases second with
          | ok a => exact hnext a (hpost a rfl) w₁ v₁ hafter
          | error e => exact ⟨rfl, hafter, fun b hb => by cases hb⟩

theorem Ignores.mapError (h : Ignores t hidden action post) (f : ε → δ) :
    Ignores t hidden (action.mapError f) post := by
  intro w v halike
  obtain ⟨hresult, hafter, hpost⟩ := h w v halike
  rw [runOn_mapError, runOn_mapError]
  refine ⟨congrArg (Except.mapError f) hresult, hafter, fun a ha => hpost a ?_⟩
  cases hfirst : (action.runOn w).1 with
  | ok b =>
      rw [hfirst] at ha
      exact congrArg Except.ok (Except.ok.inj ha)
  | error e =>
      rw [hfirst] at ha
      cases ha

theorem Ignores.attempt (h : Ignores t hidden action post) :
    Ignores t hidden (attempt action : FileAction δ (Except ε α))
      fun r => ∀ a, r = .ok a → post a := by
  intro w v halike
  obtain ⟨hresult, hafter, hpost⟩ := h w v halike
  rw [runOn_attempt, runOn_attempt]
  exact ⟨congrArg Except.ok hresult, hafter, fun r hr => Except.ok.inj hr ▸ hpost⟩

theorem ignores_mapM {f : β → FileAction ε α} {items : List β}
    (h : ∀ item ∈ items, Ignores t hidden (f item) fun _ => True) :
    Ignores t hidden (items.mapM f) fun _ => True := by
  induction items with
  | nil => exact ignores_pure trivial
  | cons item rest ih =>
      rw [List.mapM_cons]
      refine (h item (by simp)).bind fun result _ => ?_
      refine (ih fun i hi => h i (by simp [hi])).bind fun results _ => ?_
      exact ignores_pure trivial

theorem ignores_forM {f : β → FileAction ε Unit} {items : List β}
    (h : ∀ item ∈ items, Ignores t hidden (f item) fun _ => True) :
    Ignores t hidden (items.forM f) fun _ => True := by
  induction items with
  | nil => exact ignores_pure trivial
  | cons item rest ih =>
      exact (h item (by simp)).bind fun _ _ => ih fun i hi => h i (by simp [hi])

/-- Two actions on two workspaces have the same result and leave the same faces in plain sight. -/
structure Agrees (hidden : List String → Prop) (action other : FileAction ε α) (w v : Workspace) :
    Prop where
  result : (other.runOn v).1 = (action.runOn w).1
  face : ∀ q, ¬ hidden q → (other.runOn v).2.top.face? q = (action.runOn w).2.top.face? q

theorem Agrees.attempt {other : FileAction ε α} {w v : Workspace}
    (h : Agrees hidden action other w v) :
    Agrees hidden (attempt action : FileAction δ (Except ε α)) (attempt other) w v := by
  refine ⟨?_, fun q hq => ?_⟩
  · rw [runOn_attempt, runOn_attempt, h.result]
  · rw [runOn_attempt, runOn_attempt, h.face q hq]

theorem Agrees.bind {other : FileAction ε α} {next : α → FileAction ε β} {w v : Workspace}
    (h : Agrees hidden action other w v)
    (hnext : ∀ a w' v', (∀ q, ¬ hidden q → v'.top.face? q = w'.top.face? q) →
      Agrees hidden (next a) (next a) w' v') :
    Agrees hidden (action >>= next) (other >>= next) w v := by
  obtain ⟨hresult, hface⟩ := h
  have hafter : ((other >>= next).runOn v).1 = ((action >>= next).runOn w).1
      ∧ ∀ q, ¬ hidden q → ((other >>= next).runOn v).2.top.face? q
        = ((action >>= next).runOn w).2.top.face? q := by
    rw [runOn_bind, runOn_bind]
    cases hw : action.runOn w with
    | mk first w' =>
        cases hv : other.runOn v with
        | mk second v' =>
            rw [hw, hv] at hresult hface
            obtain rfl : second = first := hresult
            cases second with
            | ok a => exact ⟨(hnext a w' v' hface).result, (hnext a w' v' hface).face⟩
            | error e => exact ⟨rfl, hface⟩
  exact ⟨hafter.1, hafter.2⟩

theorem agrees_look {f : Workspace → α} {next : α → FileAction ε β} {w v : Workspace}
    (hf : f v = f w) (h : Agrees hidden (next (f w)) (next (f w)) w v) :
    Agrees hidden (look f >>= next) (look f >>= next) w v := by
  refine ⟨?_, fun q hq => ?_⟩
  · rw [runOn_bind, runOn_look, runOn_bind, runOn_look, hf]
    exact h.result
  · rw [runOn_bind, runOn_look, runOn_bind, runOn_look, hf]
    exact h.face q hq

theorem agrees_change {f : Entry → Entry} {next : Unit → FileAction ε α} {w v : Workspace}
    (h : Agrees hidden (next ()) (next ()) { w with top := f w.top } { v with top := f v.top }) :
    Agrees hidden (change f >>= next) (change f >>= next) w v :=
  ⟨h.result, h.face⟩

/-- An action keeps the terrain and leaves trees tidy, so what is left to see is its result and the
faces that it leaves. -/
theorem ignores_of_does (hdoes : Does t may make action post)
    (h : ∀ w v, w.Alike t hidden v → Agrees hidden action action w v) :
    Ignores t hidden action post := by
  intro w v halike
  obtain ⟨hresult, hface⟩ := h w v halike
  obtain ⟨hw, hpost⟩ := hdoes w _ _ halike.terrain.1 halike.tidy.1 rfl
  have hv := hdoes.alters halike.terrain.2 halike.tidy.2
  exact ⟨hresult, ⟨⟨hw.terrain.trans halike.terrain.1, hv.terrain.trans halike.terrain.2⟩,
    ⟨hw.tidy halike.tidy.1, hv.tidy halike.tidy.2⟩, hface⟩, hpost⟩

/-! ## File operations -/

theorem ignores_isFolder (hpath : t.Avoids hidden path) :
    Ignores t hidden (look (·.isFolder path) : FileAction ε Bool) fun _ => True :=
  ignores_look fun _ _ halike => halike.isFolder hpath

theorem ignores_exists? (hpath : t.Avoids hidden path) :
    Ignores t hidden (look (·.exists? path) : FileAction ε Bool) fun _ => True :=
  ignores_look fun _ _ halike => halike.exists? hpath

theorem runOn_resolve_bind {follow : Bool} {spot : Spot} {w : Workspace}
    (h : w.resolve follow path = .ok spot) (next : Spot → FileAction FileFault α) :
    (resolve follow path >>= next).runOn w = (next spot).runOn w := by
  rw [runOn_bind, runOn_resolve, h]

theorem runOn_resolve_bind_error {follow : Bool} {fault : FileFault} {w : Workspace}
    (h : w.resolve follow path = .error fault) (next : Spot → FileAction FileFault α) :
    (resolve follow path >>= next).runOn w = (.error fault, w) := by
  rw [runOn_bind, runOn_resolve, h]

section

variable {w v : Workspace} (hface : ∀ q, ¬ hidden q → v.top.face? q = w.top.face? q)
include hface

theorem agrees_throw (e : ε) : Agrees hidden (throw e : FileAction ε α) (throw e) w v :=
  ⟨rfl, hface⟩

theorem agrees_pure (a : α) : Agrees hidden (pure a : FileAction ε α) (pure a) w v :=
  ⟨rfl, hface⟩

/-- Something put at a place, with the same face above it. -/
theorem agrees_put {place : List String} (hplace : v.top.face? place = w.top.face? place)
    (name : String) (entry : Entry) :
    Agrees hidden (change (Entry.put place name entry) : FileAction ε Unit)
      (change (Entry.put place name entry)) w v := by
  refine ⟨rfl, fun q hq => ?_⟩
  show (Entry.put place name entry v.top).face? q = (Entry.put place name entry w.top).face? q
  by_cases hfolder : w.top.face? place = some .folder
  · obtain ⟨children, hchildren⟩ := face?_eq_folder_iff.mp hfolder
    obtain ⟨others, hothers⟩ := face?_eq_folder_iff.mp (hplace.trans hfolder)
    rw [face?_put hchildren, face?_put hothers, hface q hq]
  · have hother : v.top.face? place ≠ some .folder := hplace ▸ hfolder
    rw [Entry.put, Entry.put, changeFolder_of_not_folder _ hfolder,
      changeFolder_of_not_folder _ hother, hface q hq]

theorem agrees_putAt {front : List String} {name : String}
    (hfront : v.top.face? front = w.top.face? front) (entry : Entry) :
    Agrees hidden (putAt (front ++ [name]) entry) (putAt (front ++ [name]) entry) w v := by
  rw [putAt, List.getLast?_concat, List.dropLast_concat]
  exact agrees_put hface hfront name entry

theorem agrees_eraseAt (place : List String) :
    Agrees hidden (eraseAt place) (eraseAt place) w v := by
  rcases List.eq_nil_or_concat place with rfl | ⟨front, name, hplace⟩
  · exact ⟨rfl, hface⟩
  · rw [List.concat_eq_append] at hplace
    subst hplace
    refine ⟨?_, fun q hq => ?_⟩
    · rw [runOn_eraseAt, runOn_eraseAt]
    · rw [runOn_eraseAt, runOn_eraseAt, face?_erase, face?_erase, hface q hq]

/-- Something is erased and put elsewhere, with the same face above its new place. -/
theorem agrees_move {origin front : List String} {name : String} {entry : Entry}
    (hfront : v.top.face? front = w.top.face? front) {next : FileAction FileFault Unit}
    (hnext : ∀ u, next.runOn u = (.ok (), { u with top := Entry.put front name entry u.top })) :
    Agrees hidden (do eraseAt origin; next) (do eraseAt origin; next) w v := by
  rcases List.eq_nil_or_concat origin with rfl | ⟨back, n, horigin⟩
  · exact ⟨rfl, hface⟩
  · rw [List.concat_eq_append] at horigin
    subst horigin
    have hrun : ∀ u : Workspace, (do eraseAt (back ++ [n]); next : FileAction _ _).runOn u
        = (.ok (), { u with top := Entry.put front name entry (Entry.erase back n u.top) }) := by
      intro u
      rw [runOn_bind, runOn_eraseAt]
      exact hnext _
    have herased : ∀ q, v.top.face? q = w.top.face? q →
        (Entry.erase back n v.top).face? q = (Entry.erase back n w.top).face? q := by
      intro q hq
      rw [face?_erase, face?_erase, hq]
    have hput := agrees_put (ε := FileFault) (w := { w with top := Entry.erase back n w.top })
      (v := { v with top := Entry.erase back n v.top }) (fun q hq => herased q (hface q hq))
      (herased front hfront) name entry
    refine ⟨?_, fun q hq => ?_⟩
    · rw [hrun, hrun]
    · rw [hrun, hrun]
      exact hput.face q hq

end

/-- What an action does with the spot that a path leads to: it sees no more of an entry than its
face. -/
theorem agrees_resolve {w v : Workspace} (halike : w.Alike t hidden v) {follow : Bool}
    {next : Spot → FileAction FileFault α} (hpath : t.Avoids hidden path)
    (hfree : ∀ place name asFolder, v.top.face? place = w.top.face? place →
      Agrees hidden (next (.free place name asFolder)) (next (.free place name asFolder)) w v)
    (htaken : ∀ place entry other, t.aim follow path = some place →
      w.top.get? place = some entry → v.top.get? place = some other → other.face = entry.face →
      Agrees hidden (next (.taken place entry)) (next (.taken place other)) w v) :
    Agrees hidden (resolve follow path >>= next) (resolve follow path >>= next) w v := by
  rcases halike.resolve_cases hpath follow with
    ⟨fault, hw, hv⟩ | ⟨place, name, asFolder, hw, hv⟩ | ⟨place, entry, other, hw, hv, hface⟩
  · refine ⟨?_, fun q hq => ?_⟩
    · rw [runOn_resolve_bind_error hw, runOn_resolve_bind_error hv]
    · rw [runOn_resolve_bind_error hw, runOn_resolve_bind_error hv]
      exact halike.face q hq
  · obtain ⟨children, hfolder, -⟩ := Workspace.holds_of_walk (Workspace.walk_of_resolve hw)
    obtain ⟨others, hfolder', -⟩ := Workspace.holds_of_walk (Workspace.walk_of_resolve hv)
    have hnext := hfree place name asFolder
      ((face?_eq_folder_iff.mpr ⟨_, hfolder'⟩).trans (face?_eq_folder_iff.mpr ⟨_, hfolder⟩).symm)
    refine ⟨?_, fun q hq => ?_⟩
    · rw [runOn_resolve_bind hw, runOn_resolve_bind hv, hnext.result]
    · rw [runOn_resolve_bind hw, runOn_resolve_bind hv, hnext.face q hq]
  · have hnext := htaken place entry other (halike.terrain.1 ▸ Workspace.aim_of_resolve hw)
      (Workspace.holds_of_walk (Workspace.walk_of_resolve hw))
      (Workspace.holds_of_walk (Workspace.walk_of_resolve hv)) hface
    refine ⟨?_, fun q hq => ?_⟩
    · rw [runOn_resolve_bind hw, runOn_resolve_bind hv, hnext.result]
    · rw [runOn_resolve_bind hw, runOn_resolve_bind hv, hnext.face q hq]

/-- What holds something that is there in both workspaces is a folder in both. -/
theorem face?_above_congr {w v : Workspace} {front : List String} {name : String}
    {entry other : Entry} (h : w.top.get? (front ++ [name]) = some entry)
    (h' : v.top.get? (front ++ [name]) = some other) : v.top.face? front = w.top.face? front := by
  have habove : ∀ {top e : Entry}, top.get? (front ++ [name]) = some e →
      top.face? front = some .folder := by
    intro top e he
    have hbelow : top.face? (front ++ [name]) ≠ none := by
      rw [face?, he]
      simp
    exact face?_of_below hbelow
  rw [habove h, habove h']

theorem ignores_readBytes (hpath : t.Avoids hidden path) :
    Ignores t hidden (readBytes path) fun _ => True := by
  have hdoes : Does t (fun _ => True) (fun _ => False) (readBytes path) fun _ => True :=
    does_of_reads (reads_readBytes path)
  refine ignores_of_does hdoes fun w v halike => agrees_resolve halike hpath ?_ ?_
  · exact fun _ _ _ _ => agrees_throw halike.face _
  · intro place entry other _ _ _ hsame
    cases entry with
    | file content =>
        cases other with
        | file content' =>
            cases hsame
            exact agrees_pure halike.face _
        | _ => cases hsame
    | _ => cases other <;> first | exact agrees_throw halike.face _ | cases hsame

theorem ignores_readText (hpath : t.Avoids hidden path) :
    Ignores t hidden (readText path) fun _ => True := by
  refine (ignores_readBytes hpath).bind fun content _ => ?_
  split
  · exact ignores_pure trivial
  · exact ignores_throw _

/-- Folders whose children show the same faces have the same listing. -/
theorem listing_congr {children others : List (String × Entry)} (h : Listed children)
    (h' : Listed others)
    (hface : ∀ n, (others.lookup n).map face = (children.lookup n).map face) :
    (others.map fun child => (child.1, child.2.kind))
      = children.map fun child => (child.1, child.2.kind) := by
  have hkind : ∀ {a b : List (String × Entry)}, Listed a → Listed b →
      (∀ n, (b.lookup n).map face = (a.lookup n).map face) → ∀ item : String × EntryKind,
      item ∈ (a.map fun child => (child.1, child.2.kind)) →
      item ∈ b.map fun child => (child.1, child.2.kind) := by
    intro a b ha hb hsame item hitem
    obtain ⟨⟨n, e⟩, hchild, rfl⟩ := List.mem_map.mp hitem
    have hn := hsame n
    rw [(mem_iff_lookup ha).mp hchild] at hn
    obtain ⟨other, hother, heq⟩ := Option.map_eq_some_iff.mp hn
    refine List.mem_map.mpr ⟨(n, other), mem_of_lookup hother, ?_⟩
    cases e <;> cases other <;> simp_all [face, kind]
  have hasymm : Std.Asymm fun a b : String × EntryKind => a.1 < b.1 := ⟨fun _ _ => String.lt_asymm⟩
  have hascending : ∀ {a : List (String × Entry)}, Listed a →
      (a.map fun child => (child.1, child.2.kind)).Pairwise fun a b => a.1 < b.1 := fun ha =>
    List.pairwise_map.mpr ha.ascending
  exact (hascending h').eq_of_mem_iff (hascending h) fun item =>
    ⟨hkind h' h (fun n => (hface n).symm) item, hkind h h' hface item⟩

/-- What a listing of a folder names is a link only if the listing says so. -/
theorem does_listFolder_links (path : String) :
    Does t may make (listFolder path) fun listing => ∃ q, t.aim true path = some q
      ∧ ∀ item ∈ listing, ProperName item.1 ∧ (item.2 ≠ .link → t.links (q ++ [item.1]) = none) := by
  intro w r w' hterrain htidy hrun
  obtain ⟨halters, hproper⟩ := does_listFolder path w r w' hterrain htidy hrun
  refine ⟨halters, ?_⟩
  rintro listing rfl
  obtain ⟨-, place, children, hresolve, hlisting⟩ := listFolder_eq_ok hrun
  have hfolder : w.top.get? place = some (.folder children) :=
    Workspace.holds_of_walk (Workspace.walk_of_resolve hresolve)
  refine ⟨place, hterrain ▸ Workspace.aim_of_resolve hresolve, fun item hitem =>
    ⟨hproper listing rfl item hitem, fun hkind => ?_⟩⟩
  rw [hlisting] at hitem
  obtain ⟨⟨n, e⟩, hchild, rfl⟩ := List.mem_map.mp hitem
  rw [← hterrain, Workspace.links_child hfolder,
    (mem_iff_lookup (htidy place children hfolder)).mp hchild]
  cases e with
  | link target => exact absurd rfl hkind
  | _ => rfl

/-- A listing of a folder in which nothing is hidden. -/
theorem ignores_listFolder (hpath : t.Avoids hidden path)
    (hinside : ∀ q, t.aim true path = some q → ∀ n, ¬ hidden (q ++ [n])) :
    Ignores t hidden (listFolder path) fun listing => ∃ q, t.aim true path = some q
      ∧ ∀ item ∈ listing, ProperName item.1 ∧ (item.2 ≠ .link → t.links (q ++ [item.1]) = none) := by
  have hdoes : Does t (fun _ => True) (fun _ => False) (listFolder path) _ :=
    does_listFolder_links path
  refine ignores_of_does hdoes fun w v halike => agrees_resolve halike hpath ?_ ?_
  · exact fun _ _ _ _ => agrees_throw halike.face _
  · intro place entry other haim hthere hthere' hsame
    cases entry with
    | folder children =>
        cases other with
        | folder others =>
            have hlisting := listing_congr (halike.tidy.1 _ _ hthere) (halike.tidy.2 _ _ hthere')
              fun n => by
                have hchild := halike.face _ (hinside place haim n)
                rwa [face?_child hthere, face?_child hthere'] at hchild
            exact ⟨congrArg Except.ok hlisting, halike.face⟩
        | _ => cases hsame
    | _ => cases other <;> first | exact agrees_throw halike.face _ | cases hsame

theorem ignores_writeBytes (hpath : t.Avoids hidden path) (content : ByteArray) :
    Ignores t hidden (writeBytes path content) fun _ => True := by
  have hdoes : Does t (fun _ => True) (fun _ => False) (writeBytes path content) fun _ => True :=
    does_writeBytes content fun _ _ => trivial
  refine ignores_of_does hdoes fun w v halike => agrees_resolve halike hpath ?_ ?_
  · intro place name asFolder hplace
    cases asFolder with
    | true => exact agrees_throw halike.face _
    | false => exact agrees_put halike.face hplace _ _
  · intro place entry other _ hthere hthere' hsame
    cases entry with
    | file before =>
        cases other with
        | file before' =>
            rcases List.eq_nil_or_concat place with rfl | ⟨front, name, hplace⟩
            · exact agrees_throw halike.face _
            · rw [List.concat_eq_append] at hplace
              subst hplace
              exact agrees_putAt halike.face (face?_above_congr hthere hthere') _
        | _ => cases hsame
    | _ => cases other <;> first | exact agrees_throw halike.face _ | cases hsame

theorem ignores_writeText (hpath : t.Avoids hidden path) (text : String) :
    Ignores t hidden (writeText path text) fun _ => True := ignores_writeBytes hpath _

theorem ignores_copyFile {source target : String} (hsource : t.Avoids hidden source)
    (htarget : t.Avoids hidden target) :
    Ignores t hidden (copyFile source target) fun _ => True :=
  (ignores_readBytes hsource).bind fun _ _ =>
    (ignores_look fun _ _ halike => halike.isSame hsource htarget).bind fun _ _ =>
      ignores_writeBytes htarget _

theorem ignores_makeFolder (hpath : t.Avoids hidden path) :
    Ignores t hidden (makeFolder path) fun _ => True := by
  have hdoes : Does t (fun _ => True) (fun _ => False) (makeFolder path) fun _ => True :=
    does_makeFolder fun _ _ => .inl trivial
  refine ignores_of_does hdoes fun w v halike => agrees_resolve halike hpath ?_ ?_
  · exact fun _ _ _ hplace => agrees_put halike.face hplace _ _
  · exact fun _ _ _ _ _ _ _ => agrees_throw halike.face _

theorem ignores_makeFirst {paths : List String} (hpaths : ∀ path ∈ paths, t.Avoids hidden path) :
    Ignores t hidden (makeFirst paths) fun _ => True := by
  induction paths with
  | nil => exact ignores_throw _
  | cons path parents ih =>
      have hpath := hpaths path (by simp)
      have hcheck : ∀ fault : FileFault, Ignores t hidden (do
          if ← look (·.isFolder path) then pure () else throw fault : FileAction FileFault Unit)
          fun _ => True := by
        intro fault
        refine (ignores_isFolder hpath).bind fun found _ => ?_
        split
        · exact ignores_pure trivial
        · exact ignores_throw fault
      rw [makeFirst]
      split
      · exact ignores_pure trivial
      · refine (ignores_makeFolder hpath).attempt.bind fun result _ => ?_
        split
        · exact ignores_pure trivial
        · refine (ih fun p hp => hpaths p (by simp [hp])).bind fun _ _ => ?_
          refine (ignores_makeFolder hpath).attempt.bind fun second _ => ?_
          split
          · exact ignores_pure trivial
          · exact hcheck _
        · exact hcheck _

theorem ignores_makeFolders (hpath : t.Avoids hidden path) :
    Ignores t hidden (makeFolders path) fun _ => True := by
  refine ignores_makeFirst fun ancestor hancestor q hq => hpath q ?_
  obtain ⟨hsteps, habsolute⟩ := Path.steps_of_mem_ancestors hancestor
  exact Terrain.comesBy_of_steps hsteps habsolute hq

theorem ignores_removeFile (hpath : t.Avoids hidden path)
    (hlink : ∀ q, t.aim false path = some q → t.links q = none) :
    Ignores t hidden (removeFile path) fun _ => True := by
  have hdoes : Does t (fun _ => True) (fun _ => False) (removeFile path) fun _ => True :=
    does_removeFile fun q hq => ⟨trivial, hlink q hq⟩
  refine ignores_of_does hdoes fun w v halike => agrees_resolve halike hpath ?_ ?_
  · exact fun _ _ _ _ => agrees_throw halike.face _
  · intro place entry other _ _ _ hsame
    cases entry with
    | folder children => cases other <;> first | exact agrees_throw halike.face _ | cases hsame
    | _ => cases other <;> first | exact agrees_eraseAt halike.face place | cases hsame

/-- Emptying a folder without links leaves workspaces alike. -/
theorem alike_clear {w v : Workspace} (halike : w.Alike t hidden v) {place : List String}
    (hlinks : ∀ p, place <+: p → t.links p = none) :
    Workspace.Alike t hidden { w with top := Entry.changeFolder (fun _ => []) place w.top }
      { v with top := Entry.changeFolder (fun _ => []) place v.top } := by
  have hw := Workspace.alters_clear (w := w) fun q hq => by
    show w.terrain.links q = none
    rw [halike.terrain.1, hlinks q hq]
  have hv := Workspace.alters_clear (w := v) fun q hq => by
    show v.terrain.links q = none
    rw [halike.terrain.2, hlinks q hq]
  refine ⟨⟨hw.terrain.trans halike.terrain.1, hv.terrain.trans halike.terrain.2⟩,
    ⟨hw.tidy halike.tidy.1, hv.tidy halike.tidy.2⟩, fun q hq => ?_⟩
  rw [face?_clear, face?_clear, halike.face q hq]

/-- A folder that is empty in both workspaces is removed in both or in neither. -/
theorem agrees_removeFolder {w v : Workspace} (halike : w.Alike t hidden v)
    (hpath : t.Avoids hidden path)
    (hempty : ∀ q, t.aim false path = some q → ∀ u, u = w ∨ u = v →
      ∀ children, u.top.get? q = some (.folder children) → children = []) :
    Agrees hidden (removeFolder path) (removeFolder path) w v := by
  have hlink : v.isLink (Path.dropSlashes path) = w.isLink (Path.dropSlashes path) := by
    rcases hpath.dropSlashes with hnothing | hshort
    · rw [hnothing]
      rfl
    · exact halike.isLink hshort
  refine agrees_resolve halike hpath ?_ ?_
  · exact fun _ _ _ _ => agrees_throw halike.face _
  · intro place entry other haim hthere hthere' hsame
    cases entry with
    | folder children =>
        cases other with
        | folder others =>
            obtain rfl := hempty place haim w (.inl rfl) children hthere
            obtain rfl := hempty place haim v (.inr rfl) others hthere'
            simp only
            split
            · exact agrees_throw halike.face _
            split
            · exact agrees_throw halike.face _
            refine agrees_look hlink ?_
            split
            · exact agrees_throw halike.face _
            · exact agrees_eraseAt halike.face place
        | _ => cases hsame
    | _ => cases other <;> first | exact agrees_throw halike.face _ | cases hsame

theorem ignores_removeTree (hpath : t.Avoids hidden path)
    (hlinks : ∀ q, t.aim false path = some q → ∀ p, q <+: p → t.links p = none) :
    Ignores t hidden (removeTree path) fun _ => True := by
  have hdoes : Does t (fun _ => True) (fun _ => False) (removeTree path) fun _ => True :=
    does_removeTree fun q hq p hp => ⟨trivial, hlinks q hq p hp⟩
  refine ignores_of_does hdoes fun w v halike => agrees_resolve halike hpath ?_ ?_
  · exact fun _ _ _ _ => agrees_throw halike.face _
  · intro place entry other haim hthere hthere' hsame
    cases entry with
    | file content => cases other <;> first | exact agrees_throw halike.face _ | cases hsame
    | link target => cases other <;> first | exact agrees_eraseAt halike.face place | cases hsame
    | folder children =>
        cases other with
        | folder others =>
            have hcleared := alike_clear halike (hlinks place haim)
            have hremoved := agrees_removeFolder hcleared hpath ?_
            · refine agrees_change (hremoved.attempt.bind fun result w' v' hface => ?_)
              split
              · exact agrees_pure hface ()
              · exact agrees_pure hface ()
              · exact agrees_throw hface _
            · intro q hq u hu kids hkids
              obtain rfl := Option.some.inj (haim.symm.trans hq)
              have hempty : u.top.get? place = some (.folder []) := by
                rcases hu with rfl | rfl
                · exact get?_clear (face?_eq_folder_iff.mpr ⟨_, hthere⟩)
                · exact get?_clear (face?_eq_folder_iff.mpr ⟨_, hthere'⟩)
              exact Entry.folder.inj (Option.some.inj (hkids.symm.trans hempty))
        | _ => cases hsame

/-- Moving what has nothing hidden below it has the same result and leaves the same faces. -/
theorem agrees_renameFile {source target : String} {w v : Workspace} (halike : w.Alike t hidden v)
    (hsource : t.Avoids hidden source) (htarget : t.Avoids hidden target)
    (hbelow : ∀ q, t.aim false source = some q → ∀ more, ¬ hidden (q ++ more)) :
    Agrees hidden (renameFile source target) (renameFile source target) w v := by
  refine agrees_resolve halike hsource ?_ ?_
  · exact fun _ _ _ _ => agrees_throw halike.face _
  · intro origin entry other haim hthere hthere' _
    obtain rfl : other = entry := by
      have hsame := get?_eq_of_face? halike.tidy.1 halike.tidy.2 fun more =>
        halike.face (origin ++ more) (hbelow origin haim more)
      exact Option.some.inj (hthere'.symm.trans (hsame.trans hthere))
    refine agrees_resolve halike htarget ?_ ?_
    · intro place name asFolder hplace
      cases asFolder with
      | true => exact agrees_throw halike.face _
      | false => exact agrees_move halike.face hplace fun _ => rfl
    · intro place old old' _ hold hold' hsame
      have hreplace : old.face ≠ .folder → Agrees hidden
          (do unless place = origin do
                eraseAt origin
                putAt place other : FileAction FileFault Unit)
          (do unless place = origin do
                eraseAt origin
                putAt place other) w v := by
        intro hnot
        by_cases heq : place = origin
        · rw [if_pos heq]
          exact agrees_pure halike.face _
        rw [if_neg heq]
        rcases List.eq_nil_or_concat place with rfl | ⟨front, name, hplace⟩
        · -- What is moved is below the root, so the root is a folder.
          obtain ⟨n, more, rfl⟩ := List.exists_cons_of_ne_nil (Ne.symm heq)
          have hbelow : w.top.face? ([] ++ n :: more) ≠ none := by
            rw [List.nil_append, face?, hthere]
            simp
          have hroot := face?_of_below hbelow
          rw [face?, hold] at hroot
          exact absurd (Option.some.inj hroot) hnot
        · rw [List.concat_eq_append] at hplace
          subst hplace
          exact agrees_move halike.face (face?_above_congr hold hold') (runOn_putAt front name other)
      cases old with
      | folder children =>
          cases old' <;> first | exact agrees_throw halike.face _ | cases hsame
      | file content => cases old' <;> first | exact hreplace (by simp [face]) | cases hsame
      | link target' => cases old' <;> first | exact hreplace (by simp [face]) | cases hsame

end FileAction

end CanvasFlutter
