import CanvasFlutter.Proofs.Workspace.Aim

namespace CanvasFlutter

/-!
# `CanvasFlutter.Proofs.Workspace.Effect` — what actions may do to a workspace

An action changes what is where its paths point, and nothing else. A claim about an action names
the places where it may change files and folders and those where it may make folders, and it holds
whether the action fails or not.

## Contents
- **Alterations.** `Workspace.Alters`; one lemma for each change of a tree.
- **Actions.** `FileAction.Does`, and how it goes through sequences.
- **File operations.** `does_writeBytes`, `does_makeFolders`, `does_removeFile`, ...
-/

open Entry

/-! ## Alterations -/

namespace Workspace

/-- A workspace and a later one: at some places (`may`) files and folders may have changed, at
others (`make`) folders have been made where nothing was. Links stay. -/
structure Alters (may make : List String → Prop) (w w' : Workspace) : Prop where
  terrain : w'.terrain = w.terrain
  tidy : w.top.Tidy → w'.top.Tidy
  face : ∀ q, ¬ may q → w'.top.face? q = w.top.face? q
    ∨ make q ∧ w.top.face? q = none ∧ w'.top.face? q = some .folder

variable {may make : List String → Prop} {w w₁ w₂ : Workspace} {place : List String}
variable {name : String} {children : List (String × Entry)}

theorem Alters.refl (may make : List String → Prop) (w : Workspace) : Alters may make w w :=
  ⟨rfl, id, fun _ _ => .inl rfl⟩

theorem Alters.trans (h₁ : Alters may make w w₁) (h₂ : Alters may make w₁ w₂) :
    Alters may make w w₂ := by
  refine ⟨h₂.terrain.trans h₁.terrain, h₂.tidy ∘ h₁.tidy, fun q hq => ?_⟩
  rcases h₁.face q hq with hfirst | ⟨hmake, hnone, hfolder⟩
  · rw [← hfirst]
    exact h₂.face q hq
  · rcases h₂.face q hq with hsecond | ⟨-, hgone, -⟩
    · exact .inr ⟨hmake, hnone, hsecond.trans hfolder⟩
    · rw [hfolder] at hgone
      simp at hgone

theorem Alters.mono {may' make' : List String → Prop} (h : Alters may make w w₁)
    (hmay : ∀ q, may q → may' q) (hmake : ∀ q, make q → may' q ∨ make' q) :
    Alters may' make' w w₁ := by
  refine ⟨h.terrain, h.tidy, fun q hq => ?_⟩
  rcases h.face q fun hm => hq (hmay q hm) with hsame | ⟨hm, hfaces⟩
  · exact .inl hsame
  · exact .inr ⟨(hmake q hm).resolve_left hq, hfaces⟩

/-- What is there and may not be changed stays. -/
theorem Alters.face_of_ne_none (h : Alters may make w w₁) {q : List String} (hq : ¬ may q)
    (hthere : w.top.face? q ≠ none) : w₁.top.face? q = w.top.face? q := by
  rcases h.face q hq with hsame | ⟨-, hnone, -⟩
  · exact hsame
  · exact absurd hnone hthere

/-- Workspaces with the same links and the same working folder have the same terrain. -/
theorem terrain_eq (hhere : w₁.here = w.here)
    (h : ∀ q, w₁.top.face? q = w.top.face? q ∨ w₁.link? q = none ∧ w.link? q = none) :
    w₁.terrain = w.terrain := by
  have hlinks : w₁.link? = w.link? := by
    funext q
    rcases h q with hface | ⟨hnew, hold⟩
    · unfold link?
      rw [hface]
    · rw [hnew, hold]
  unfold terrain
  rw [hlinks, hhere]

/-- Something without links and without anything in it may be put where no link and nothing below
it is. -/
theorem alters_put (hfolder : w.top.get? place = some (.folder children)) (hname : ProperName name)
    {entry : Entry} (hentry : entry.Tidy) (hlink : ∀ target, entry.face ≠ .link target)
    (hempty : ∀ n more, entry.face? (n :: more) = none)
    (hold : w.link? (place ++ [name]) = none)
    (hbelow : ∀ n more, w.top.face? (place ++ name :: n :: more) = none) :
    Alters (· = place ++ [name]) (fun _ => False) w
      { w with top := put place name entry w.top } := by
  have hface : ∀ q, q ≠ place ++ [name] →
      (put place name entry w.top).face? q = w.top.face? q := by
    intro q hq
    rw [face?_put hfolder]
    split
    · next hprefix =>
        obtain ⟨more, rfl⟩ := prefix_concat_iff.mp hprefix
        cases more with
        | nil => exact absurd rfl hq
        | cons n more =>
            have hdrop : (place ++ name :: n :: more).drop (place.length + 1) = n :: more := by
              rw [List.drop_append, List.drop_eq_nil_of_le (by omega)]
              simp
            rw [hdrop, hempty, hbelow]
    · rfl
  refine ⟨terrain_eq rfl fun q => ?_, fun htidy => htidy.put hname hentry,
    fun q hq => .inl (hface q hq)⟩
  by_cases hq : q = place ++ [name]
  · subst hq
    refine .inr ⟨?_, hold⟩
    cases hnew : link? { w with top := put place name entry w.top } (place ++ [name]) with
    | none => rfl
    | some target =>
        rw [link?_eq_some_iff, face?_put hfolder, if_pos (List.prefix_refl _)] at hnew
        have hself : entry.face = .link target := by
          simpa [face?, get?] using hnew
        exact absurd hself (hlink target)
  · exact .inl (hface q hq)

/-- Below a file or nothing there is nothing. -/
theorem face?_below_open (h : IsOpen place name w.top) (n : String) (more : List String) :
    w.top.face? (place ++ name :: n :: more) = none := by
  rw [List.append_cons]
  refine face?_below ?_ n more
  obtain ⟨children, hfolder, hopen⟩ := h
  rw [face?_child hfolder]
  cases hlookup : children.lookup name with
  | none => simp
  | some e =>
      have hfile := hopen e hlookup
      cases e <;> simp [outline, face] at hfile ⊢

theorem link?_open (h : IsOpen place name w.top) : w.link? (place ++ [name]) = none := by
  cases hlink : w.link? (place ++ [name]) with
  | none => rfl
  | some target =>
      rw [link?_eq_some_iff, face?_eq_link_iff] at hlink
      simpa [outline] using get?_target h hlink

/-- A file may be put in the place of a file or of nothing. -/
theorem alters_store (h : IsOpen place name w.top) (hname : ProperName name)
    (content : ByteArray) :
    Alters (· = place ++ [name]) (fun _ => False) w (w.store place name content) := by
  obtain ⟨children, hfolder, -⟩ := id h
  exact alters_put hfolder hname (tidy_file content) (by simp [face]) (by simp [face?, get?])
    (link?_open h) (face?_below_open h)

/-- A folder may be put in the place of nothing. -/
theorem alters_newFolder (hfolder : w.top.get? place = some (.folder children))
    (hnone : children.lookup name = none) (hname : ProperName name) :
    Alters (fun _ => False) (· = place ++ [name]) w
      { w with top := put place name (.folder []) w.top } := by
  have hopen : IsOpen place name w.top := ⟨children, hfolder, by simp [hnone]⟩
  have hput := alters_put hfolder hname tidy_newFolder (by simp [face]) (by simp [face?, get?])
    (link?_open hopen) (face?_below_open hopen)
  refine ⟨hput.terrain, hput.tidy, fun q _ => ?_⟩
  by_cases hq : q = place ++ [name]
  · subst hq
    refine .inr ⟨rfl, ?_, ?_⟩
    · rw [face?_child hfolder, hnone]
      rfl
    · rw [face?_put hfolder, if_pos (List.prefix_refl _)]
      simp [face?, get?, face]
  · exact (hput.face q hq).imp id fun h => h.1.elim

/-- What has no links in it may be erased. -/
theorem alters_erase (hlinks : ∀ q, place ++ [name] <+: q → w.link? q = none) :
    Alters (place ++ [name] <+: ·) (fun _ => False) w
      { w with top := erase place name w.top } := by
  have hface : ∀ q, ¬ place ++ [name] <+: q →
      (erase place name w.top).face? q = w.top.face? q := fun q hq => by
    rw [face?_erase, if_neg hq]
  refine ⟨terrain_eq rfl fun q => ?_, fun htidy => htidy.erase place name,
    fun q hq => .inl (hface q hq)⟩
  by_cases hq : place ++ [name] <+: q
  · refine .inr ⟨?_, hlinks q hq⟩
    unfold link?
    rw [face?_erase, if_pos hq]
  · exact .inl (hface q hq)

/-- A file may be erased. -/
theorem alters_eraseFile {content : ByteArray}
    (hfile : w.top.face? (place ++ [name]) = some (.file content)) :
    Alters (· = place ++ [name]) (fun _ => False) w
      { w with top := erase place name w.top } := by
  have hbelow : ∀ n more, w.top.face? (place ++ name :: n :: more) = none := by
    intro n more
    rw [List.append_cons]
    exact face?_below (by simp [hfile]) n more
  have hlinks : ∀ q, place ++ [name] <+: q → w.link? q = none := by
    intro q hq
    obtain ⟨more, rfl⟩ := prefix_concat_iff.mp hq
    unfold link?
    cases more with
    | nil => rw [hfile]
    | cons n more => rw [hbelow]
  have herase := alters_erase hlinks
  refine ⟨herase.terrain, herase.tidy, fun q hq => ?_⟩
  by_cases hprefix : place ++ [name] <+: q
  · obtain ⟨more, rfl⟩ := prefix_concat_iff.mp hprefix
    cases more with
    | nil => exact absurd rfl hq
    | cons n more => exact .inl (by rw [face?_erase, if_pos hprefix, hbelow])
  · exact herase.face q hprefix

/-- A folder that has no links in it may be emptied. -/
theorem alters_clear (hlinks : ∀ q, place <+: q → w.link? q = none) :
    Alters (place <+: ·) (fun _ => False) w
      { w with top := changeFolder (fun _ => []) place w.top } := by
  have hface : ∀ q, ¬ (place <+: q ∧ q ≠ place) →
      (changeFolder (fun _ => []) place w.top).face? q = w.top.face? q := fun q hq => by
    rw [face?_clear, if_neg hq]
  refine ⟨terrain_eq rfl fun q => ?_, fun htidy => htidy.clear place,
    fun q hq => .inl (hface q fun h => hq h.1)⟩
  by_cases hq : place <+: q ∧ q ≠ place
  · refine .inr ⟨?_, hlinks q hq.1⟩
    unfold link?
    rw [face?_clear, if_pos hq]
  · exact .inl (hface q hq)

end Workspace

/-! ## Actions -/

namespace FileAction

variable {ε δ α β : Type} {t : Terrain} {may make : List String → Prop} {w w' : Workspace}
variable {action : FileAction ε α} {post : α → Prop}

theorem runOn_look (f : Workspace → α) (w : Workspace) :
    (look f : FileAction ε α).runOn w = (.ok (f w), w) := rfl

theorem runOn_attempt (action : FileAction ε α) (w : Workspace) :
    (attempt action : FileAction δ (Except ε α)).runOn w
      = (.ok (action.runOn w).1, (action.runOn w).2) := rfl

theorem runOn_mapError (f : ε → δ) (action : FileAction ε α) (w : Workspace) :
    (action.mapError f).runOn w = ((action.runOn w).1.mapError f, (action.runOn w).2) := by
  simp only [mapError, runOn, ExceptT.run_mk, StateT.run_bind]
  generalize StateT.run (ExceptT.run action) w = result
  obtain ⟨_ | a, w'⟩ := result <;> rfl

/-- An action whose failure has another cause does what it did. -/
theorem runOn_mapError_cases {f : ε → δ} {r : Except δ α}
    (h : (action.mapError f).runOn w = (r, w')) :
    ∃ first, action.runOn w = (first, w') ∧ r = first.mapError f := by
  rw [runOn_mapError] at h
  obtain ⟨rfl, rfl⟩ := Prod.mk.inj h
  exact ⟨_, rfl, rfl⟩

theorem runOn_bind_of_ok {next : α → FileAction ε β} {a : α} {b : β} {between : Workspace}
    (hfirst : action.runOn w = (.ok a, between)) (hrest : (next a).runOn between = (.ok b, w')) :
    (action >>= next).runOn w = (.ok b, w') := by
  rw [runOn_bind, hfirst]
  exact hrest

theorem runOn_attempt_bind_eq_ok {action : FileAction δ α}
    {next : Except δ α → FileAction ε β} {b : β}
    (h : (attempt action >>= next).runOn w = (.ok b, w')) :
    ∃ r between, action.runOn w = (r, between) ∧ (next r).runOn between = (.ok b, w') := by
  rw [runOn_bind, runOn_attempt] at h
  exact ⟨_, _, rfl, h⟩

theorem runOn_pure_eq_ok {a b : α} (h : (pure a : FileAction ε α).runOn w = (.ok b, w')) :
    b = a ∧ w' = w := by
  obtain ⟨hresult, rfl⟩ := Prod.mk.inj h
  exact ⟨(Except.ok.inj hresult).symm, rfl⟩

theorem runOn_throw_ne_ok {e : ε} {b : α} :
    (throw e : FileAction ε α).runOn w ≠ (.ok b, w') := by
  rw [runOn_throw]
  simp

/-- On a terrain, an action alters no more than it may, and its result, if it has one, is as
promised. -/
def Does (t : Terrain) (may make : List String → Prop) (action : FileAction ε α)
    (post : α → Prop) : Prop :=
  ∀ w r w', w.terrain = t → w.top.Tidy → action.runOn w = (r, w') →
    w.Alters may make w' ∧ ∀ a, r = .ok a → post a

theorem Does.alters (h : Does t may make action post) (ht : w.terrain = t) (htidy : w.top.Tidy) :
    w.Alters may make (action.runOn w).2 := (h w _ _ ht htidy rfl).1

theorem does_pure {a : α} (h : post a) : Does t may make (pure a : FileAction ε α) post := by
  intro w r w' _ _ hrun
  obtain ⟨rfl, rfl⟩ := Prod.mk.inj hrun
  exact ⟨.refl _ _ _, fun b hb => Except.ok.inj hb ▸ h⟩

theorem does_throw (e : ε) : Does t may make (throw e : FileAction ε α) post := by
  intro w r w' _ _ hrun
  obtain ⟨rfl, rfl⟩ := Prod.mk.inj hrun
  exact ⟨.refl _ _ _, fun b hb => by simp at hb⟩

theorem does_look (f : Workspace → α) :
    Does t may make (look f : FileAction ε α) fun _ => True := by
  intro w r w' _ _ hrun
  obtain ⟨rfl, rfl⟩ := Prod.mk.inj hrun
  exact ⟨.refl _ _ _, fun _ _ => trivial⟩

theorem Does.bind {next : α → FileAction ε β} {post' : β → Prop}
    (h : Does t may make action post) (hnext : ∀ a, post a → Does t may make (next a) post') :
    Does t may make (action >>= next) post' := by
  intro w r w' ht htidy hrun
  rcases runOn_bind_cases hrun with ⟨e, hfirst, rfl⟩ | ⟨a, between, hfirst, hrest⟩
  · exact ⟨(h w _ w' ht htidy hfirst).1, fun b hb => by cases hb⟩
  · obtain ⟨halters, hpost⟩ := h w _ between ht htidy hfirst
    obtain ⟨hafter, hpost'⟩ := hnext a (hpost a rfl) between r w' (halters.terrain.trans ht)
      (halters.tidy htidy) hrest
    exact ⟨halters.trans hafter, hpost'⟩

theorem Does.mapError (h : Does t may make action post) (f : ε → δ) :
    Does t may make (action.mapError f) post := by
  intro w r w' ht htidy hrun
  obtain ⟨first, hfirst, rfl⟩ := runOn_mapError_cases hrun
  obtain ⟨halters, hpost⟩ := h w first w' ht htidy hfirst
  refine ⟨halters, fun a ha => hpost a ?_⟩
  cases first with
  | ok b => exact congrArg Except.ok (Except.ok.inj ha)
  | error e => cases ha

theorem Does.attempt (h : Does t may make action post) :
    Does t may make (attempt action : FileAction δ (Except ε α)) fun r => ∀ a, r = .ok a → post a := by
  intro w r w' ht htidy hrun
  rw [runOn_attempt] at hrun
  obtain ⟨rfl, rfl⟩ := Prod.mk.inj hrun
  obtain ⟨halters, hpost⟩ := h w _ _ ht htidy rfl
  exact ⟨halters, fun result hresult => Except.ok.inj hresult ▸ hpost⟩

theorem Does.mono {may' make' : List String → Prop} {post' : α → Prop}
    (h : Does t may make action post) (hmay : ∀ q, may q → may' q)
    (hmake : ∀ q, make q → may' q ∨ make' q) (hpost : ∀ a, post a → post' a) :
    Does t may' make' action post' := by
  intro w r w' ht htidy hrun
  obtain ⟨halters, hresult⟩ := h w r w' ht htidy hrun
  exact ⟨halters.mono hmay hmake, fun a ha => hpost a (hresult a ha)⟩

theorem does_mapM {f : β → FileAction ε α} {items : List β}
    (h : ∀ item ∈ items, Does t may make (f item) post) :
    Does t may make (items.mapM f) fun _ => True := by
  induction items with
  | nil => exact does_pure trivial
  | cons item rest ih =>
      rw [List.mapM_cons]
      refine (h item (by simp)).bind fun result _ => ?_
      refine (ih fun i hi => h i (by simp [hi])).bind fun results _ => ?_
      exact does_pure trivial

theorem does_forM {f : β → FileAction ε Unit} {items : List β}
    (h : ∀ item ∈ items, Does t may make (f item) fun _ => True) :
    Does t may make (items.forM f) fun _ => True := by
  induction items with
  | nil => exact does_pure trivial
  | cons item rest ih =>
      exact (h item (by simp)).bind fun _ _ => ih fun i hi => h i (by simp [hi])

/-- An action that only reads does nothing. -/
theorem does_of_reads (h : ∀ w, (action.runOn w).2 = w) :
    Does t may make action fun _ => True := by
  intro w r w' _ _ hrun
  obtain rfl : w = w' := by rw [← h w, hrun]
  exact ⟨.refl _ _ _, fun _ _ => trivial⟩

end FileAction

/-! ## File operations -/

theorem not_mem_of_mem_splitOn {c : Char} {t part : Text} (h : part ∈ t.splitOn c) : c ∉ part := by
  induction t generalizing part with
  | nil => simp_all
  | cons d t ih =>
      rw [List.splitOn_cons_eq_if_modifyHead] at h
      split at h
      · rcases List.mem_cons.mp h with rfl | hrest
        · simp
        · exact ih hrest
      · next hd =>
          cases hparts : t.splitOn c with
          | nil => exact absurd hparts (List.splitOn_ne_nil c t)
          | cons first rest =>
              rw [hparts] at h ih
              rcases List.mem_cons.mp h with rfl | hrest
              · have hdc : ¬ c = d := fun heq => hd (by simp [heq])
                simpa [hdc] using ih (by simp)
              · exact ih (by simp [hrest])

theorem Path.no_slash_of_mem_parts {path name : String} (h : name ∈ parts path) :
    '/' ∉ name.toList := by
  obtain ⟨part, hpart, rfl⟩ := List.mem_map.mp h
  simpa using not_mem_of_mem_splitOn hpart

namespace Workspace

variable {w : Workspace} {place : List String} {name : String}

/-- A free name is a name. -/
theorem properName_of_walk {follow : Bool} {fuel : Nat} {here names : List String}
    {asFolder : Bool} (hnames : ∀ n ∈ names, '/' ∉ n.toList)
    (h : w.walk follow fuel here names = .ok (.free place name asFolder)) : ProperName name := by
  fun_induction Workspace.walk w follow fuel here names with
  | case3 fuel here n rest children hfolder hblank ih => exact ih (fun m hm => hnames m (by simp [hm])) h
  | case4 fuel here rest children hfolder hblank ih => exact ih (fun m hm => hnames m (by simp [hm])) h
  | case6 fuel here n rest children hfolder hblank hup hlong hnone hall =>
      obtain ⟨rfl, rfl, -⟩ := Spot.free.inj (Except.ok.inj h)
      exact ⟨fun heq => hblank (.inl heq), fun heq => hblank (.inr heq), hup, hnames n (by simp)⟩
  | case10 here n rest children hfolder hblank hup hlong target htarget hlast fuel next ih =>
      refine ih (fun m hm => ?_) h
      rcases List.mem_append.mp hm with hm | hm
      · exact Path.no_slash_of_mem_parts hm
      · exact hnames m (by simp [hm])
  | case11 fuel here n rest children hfolder hblank hup hlong entry hnolink hentry ih =>
      exact ih (fun m hm => hnames m (by simp [hm])) h
  | _ => simp_all

theorem properName_of_resolve {follow : Bool} {path : String} {asFolder : Bool}
    (h : w.resolve follow path = .ok (.free place name asFolder)) : ProperName name :=
  properName_of_walk (fun _ => Path.no_slash_of_mem_parts) (walk_of_resolve h)

end Workspace

namespace FileAction

variable {t : Terrain} {may make : List String → Prop} {w w' : Workspace} {path : String}

theorem reads_readBytes (path : String) (w : Workspace) : ((readBytes path).runOn w).2 = w := by
  rw [readBytes, runOn_bind, runOn_resolve]
  cases w.resolve true path with
  | error fault => rfl
  | ok spot => rcases spot with ⟨_, _ | _ | _⟩ | _ <;> rfl

theorem runOn_putAt (front : List String) (name : String) (entry : Entry) (w : Workspace) :
    (putAt (front ++ [name]) entry).runOn w
      = (.ok (), { w with top := Entry.put front name entry w.top }) := by
  rw [putAt, List.getLast?_concat, List.dropLast_concat]
  rfl

theorem runOn_eraseAt (front : List String) (name : String) (w : Workspace) :
    (eraseAt (front ++ [name])).runOn w
      = (.ok (), { w with top := Entry.erase front name w.top }) := by
  rw [eraseAt, List.getLast?_concat, List.dropLast_concat]
  rfl

/-- Erasing fails at the root without effect. -/
theorem eraseAt_cases {place : List String} {r : Except FileFault Unit}
    (h : (eraseAt place).runOn w = (r, w')) : (w' = w ∧ r = .error .busy)
      ∨ r = .ok () ∧ ∃ front name, place = front ++ [name]
        ∧ w' = { w with top := Entry.erase front name w.top } := by
  rcases List.eq_nil_or_concat place with rfl | ⟨front, name, hplace⟩
  · obtain ⟨rfl, rfl⟩ := Prod.mk.inj h
    exact .inl ⟨rfl, rfl⟩
  · rw [List.concat_eq_append] at hplace
    subst hplace
    rw [runOn_eraseAt] at h
    obtain ⟨rfl, rfl⟩ := Prod.mk.inj h
    exact .inr ⟨rfl, front, name, rfl, rfl⟩

theorem eq_of_writeBytes_error {content : ByteArray} {fault : FileFault}
    (h : (writeBytes path content).runOn w = (.error fault, w')) : w' = w := by
  rw [writeBytes, runOn_bind, runOn_resolve] at h
  cases hresolve : w.resolve true path with
  | error fault' =>
      rw [hresolve] at h
      exact (congrArg Prod.snd h).symm
  | ok spot =>
      rw [hresolve] at h
      rcases spot with ⟨place, _ | _ | _⟩ | ⟨place, name, _ | _⟩
      · rcases List.eq_nil_or_concat place with rfl | ⟨front, name, hplace⟩
        · exact (congrArg Prod.snd h).symm
        · rw [List.concat_eq_append] at hplace
          subst hplace
          simp [runOn_putAt] at h
      all_goals first | exact (congrArg Prod.snd h).symm | cases congrArg Prod.fst h

theorem does_writeBytes (content : ByteArray) (h : ∀ q, t.aim true path = some q → may q) :
    Does t may make (writeBytes path content) fun _ => True := by
  intro w r w' ht htidy hrun
  refine ⟨?_, fun _ _ => trivial⟩
  cases r with
  | error fault =>
      obtain rfl := eq_of_writeBytes_error hrun
      exact .refl _ _ _
  | ok _ =>
      obtain ⟨place, name, spot, hresolve, hspot, rfl⟩ := exists_store_of_writeBytes hrun
      have hopen := hspot.isOpen (Workspace.holds_of_walk (Workspace.walk_of_resolve hresolve))
      have haim : t.aim true path = some (place ++ [name]) := by
        have := Workspace.aim_of_resolve hresolve
        rcases hspot with ⟨before, rfl⟩ | rfl <;> rwa [ht] at this
      have hname : ProperName name := by
        rcases hspot with ⟨before, rfl⟩ | rfl
        · obtain ⟨children, hfolder, -⟩ := hopen
          have hfile : w.top.get? (place ++ [name]) = some (.file before) :=
            Workspace.holds_of_walk (Workspace.walk_of_resolve hresolve)
          rw [get?_child hfolder] at hfile
          exact (htidy place children hfolder).proper _ (mem_of_lookup hfile)
        · exact Workspace.properName_of_resolve hresolve
      refine (Workspace.alters_store hopen hname content).mono (fun q hq => ?_) (by simp)
      exact hq ▸ h _ haim

theorem does_writeText (text : String) (h : ∀ q, t.aim true path = some q → may q) :
    Does t may make (writeText path text) fun _ => True := does_writeBytes _ h

/-- Making a folder either fails without effect or makes it where its path points. -/
theorem makeFolder_cases {r : Except FileFault Unit} (h : (makeFolder path).runOn w = (r, w')) :
    (w' = w ∧ r ≠ .ok ())
      ∨ r = .ok () ∧ ∃ place name asFolder, w.resolve false path = .ok (.free place name asFolder)
        ∧ w' = { w with top := Entry.put place name (.folder []) w.top } := by
  rw [makeFolder, runOn_bind, runOn_resolve] at h
  cases hresolve : w.resolve false path with
  | error fault =>
      rw [hresolve] at h
      obtain ⟨rfl, rfl⟩ := Prod.mk.inj h
      exact .inl ⟨rfl, by simp⟩
  | ok spot =>
      rw [hresolve] at h
      cases spot with
      | taken place entry =>
          obtain ⟨rfl, rfl⟩ := Prod.mk.inj h
          exact .inl ⟨rfl, by simp⟩
      | free place name asFolder =>
          obtain ⟨rfl, rfl⟩ := Prod.mk.inj h
          exact .inr ⟨rfl, place, name, asFolder, rfl, rfl⟩

theorem does_makeFolder (h : ∀ q, t.aim true path = some q → may q ∨ make q) :
    Does t may make (makeFolder path) fun _ => True := by
  intro w r w' ht htidy hrun
  refine ⟨?_, fun _ _ => trivial⟩
  rcases makeFolder_cases hrun with ⟨rfl, -⟩ | ⟨-, place, name, asFolder, hresolve, rfl⟩
  · exact .refl _ _ _
  · obtain ⟨children, hfolder, hnone⟩ :=
      Workspace.holds_of_walk (Workspace.walk_of_resolve hresolve)
    have hlink : w.link? (place ++ [name]) = none :=
      Workspace.link?_open ⟨children, hfolder, by simp [hnone]⟩
    have haim : t.aim true path = some (place ++ [name]) :=
      ht ▸ Terrain.aimFrom_follow (Workspace.aim_of_resolve hresolve) hlink
    have hname := Workspace.properName_of_resolve hresolve
    refine (Workspace.alters_newFolder hfolder hnone hname).mono (by simp) fun q hq => ?_
    exact hq ▸ h _ haim

theorem does_makeFirst {paths : List String}
    (h : ∀ path ∈ paths, ∀ q, t.aim true path = some q → may q ∨ make q) :
    Does t may make (makeFirst paths) fun _ => True := by
  induction paths with
  | nil => exact does_throw _
  | cons path parents ih =>
      have hfolder : Does t may make (makeFolder path) fun _ => True :=
        does_makeFolder (h path (by simp))
      have hcheck : ∀ fault : FileFault, Does t may make (do
          if ← look (·.isFolder path) then pure () else throw fault : FileAction FileFault Unit)
          fun _ => True := by
        intro fault
        refine (does_look _).bind fun found _ => ?_
        split
        · exact does_pure trivial
        · exact does_throw fault
      rw [makeFirst]
      split
      · exact does_pure trivial
      · refine hfolder.attempt.bind fun result _ => ?_
        split
        · exact does_pure trivial
        · refine (ih fun p hp => h p (by simp [hp])).bind fun _ _ => ?_
          refine hfolder.attempt.bind fun second _ => ?_
          split
          · exact does_pure trivial
          · exact hcheck _
        · exact hcheck _

/-- Making a folder with its parents makes folders on the way of its path only. -/
theorem does_makeFolders (h : ∀ q, t.LeadsThrough path q → may q ∨ make q) :
    Does t may make (makeFolders path) fun _ => True := by
  refine does_makeFirst fun ancestor hancestor q hq => h q ?_
  obtain ⟨hsteps, habsolute⟩ := Path.steps_of_mem_ancestors hancestor
  exact Terrain.leadsThrough_of_steps hsteps habsolute (Terrain.leadsThrough_aim hq)

theorem does_copyFile {source target : String} (h : ∀ q, t.aim true target = some q → may q) :
    Does t may make (copyFile source target) fun _ => True :=
  (does_of_reads (reads_readBytes source)).bind fun _ _ => (does_look _).bind fun _ _ =>
    does_writeBytes _ h

/-- A file that is not copied onto itself is read and written. -/
theorem runOn_copyFile {source target : String} (h : w.isSame source target = false) :
    (copyFile source target).runOn w
      = (do writeBytes target (← readBytes source)).runOn w := by
  rw [copyFile, runOn_bind, runOn_bind]
  have hreads := reads_readBytes source w
  cases hread : (readBytes source).runOn w with
  | mk r between =>
      rw [hread] at hreads
      obtain rfl : between = w := hreads
      cases r with
      | error fault => rfl
      | ok content =>
          simp only
          rw [runOn_bind, runOn_look]
          simp only [h, Bool.false_eq_true, if_false]

/-- Removing a file either fails without effect or erases what its path leads to, which is no
folder. -/
theorem removeFile_cases {r : Except FileFault Unit} (h : (removeFile path).runOn w = (r, w')) :
    w' = w ∨ ∃ front name entry, w.resolve false path = .ok (.taken (front ++ [name]) entry)
      ∧ entry.face ≠ .folder ∧ w' = { w with top := Entry.erase front name w.top } := by
  rw [removeFile, runOn_bind, runOn_resolve] at h
  cases hresolve : w.resolve false path with
  | error fault =>
      rw [hresolve] at h
      exact .inl (congrArg Prod.snd h).symm
  | ok spot =>
      rw [hresolve] at h
      rcases spot with ⟨place, content | target | children⟩ | ⟨place, name, asFolder⟩
      · rcases eraseAt_cases h with ⟨rfl, -⟩ | ⟨-, front, name, rfl, rfl⟩
        · exact .inl rfl
        · exact .inr ⟨front, name, _, rfl, by simp [face], rfl⟩
      · rcases eraseAt_cases h with ⟨rfl, -⟩ | ⟨-, front, name, rfl, rfl⟩
        · exact .inl rfl
        · exact .inr ⟨front, name, _, rfl, by simp [face], rfl⟩
      · exact .inl (congrArg Prod.snd h).symm
      · exact .inl (congrArg Prod.snd h).symm

theorem does_removeFile (h : ∀ q, t.aim false path = some q → may q ∧ t.links q = none) :
    Does t may make (removeFile path) fun _ => True := by
  intro w r w' ht htidy hrun
  refine ⟨?_, fun _ _ => trivial⟩
  rcases removeFile_cases hrun with rfl | ⟨front, name, entry, hresolve, hface, rfl⟩
  · exact .refl _ _ _
  · obtain ⟨hmay, hlink⟩ := h _ (ht ▸ Workspace.aim_of_resolve hresolve)
    have hentry : w.top.get? (front ++ [name]) = some entry :=
      Workspace.holds_of_walk (Workspace.walk_of_resolve hresolve)
    cases entry with
    | file content =>
        have hfile := face?_eq_file_iff.mpr hentry
        exact (Workspace.alters_eraseFile hfile).mono (fun q hq => hq ▸ hmay) (by simp)
    | link target =>
        have hsome := Workspace.link?_eq_some_iff.mpr (face?_eq_link_iff.mpr hentry)
        rw [← ht] at hlink
        exact absurd (hsome.symm.trans hlink) (by simp)
    | folder children => exact absurd rfl hface

theorem eraseAt_then_cases {place : List String} {next : FileAction FileFault Unit}
    {f : Entry → Entry} (hnext : ∀ w, next.runOn w = (.ok (), { w with top := f w.top }))
    {r : Except FileFault Unit} (h : (do eraseAt place; next).runOn w = (r, w')) :
    (w' = w ∧ r = .error .busy) ∨ r = .ok () ∧ ∃ front name, place = front ++ [name]
      ∧ w' = { w with top := f (Entry.erase front name w.top) } := by
  rw [runOn_bind] at h
  cases herase : (eraseAt place).runOn w with
  | mk first between =>
      rw [herase] at h
      rcases eraseAt_cases herase with ⟨rfl, rfl⟩ | ⟨rfl, front, name, rfl, rfl⟩
      · obtain ⟨rfl, rfl⟩ := Prod.mk.inj h
        exact .inl ⟨rfl, rfl⟩
      · simp only [hnext] at h
        obtain ⟨rfl, rfl⟩ := Prod.mk.inj h
        exact .inr ⟨rfl, front, name, rfl, rfl⟩

/-- What a path leads to has been moved to a name in a folder, in the place of what another path
leads to, which is no folder. -/
structure Moved (source target : String) (front : List String) (name : String) (entry : Entry)
    (w w' : Workspace) : Prop where
  source : ∃ back n, w.resolve false source = .ok (.taken (back ++ [n]) entry)
    ∧ back ++ [n] ≠ front ++ [name]
    ∧ w' = { w with top := Entry.put front name entry (Entry.erase back n w.top) }
  target : ∃ spot, w.resolve false target = .ok spot
    ∧ ∀ place children, spot ≠ .taken place (.folder children)

/-- Where something may be put there is a folder, and it has a name. -/
theorem target_of_resolve {follow : Bool} {front : List String} {name : String}
    {spot : Spot} (htidy : w.top.Tidy) (h : w.resolve follow path = .ok spot)
    (hplace : spot.place = front ++ [name]) (hopen : ∀ place children,
      spot ≠ .taken place (.folder children)) : ProperName name
      ∧ w.top.face? front = some .folder ∧ w.top.face? (front ++ [name]) ≠ some .folder := by
  have hholds := Workspace.holds_of_walk (Workspace.walk_of_resolve h)
  cases spot with
  | taken place old =>
      obtain rfl : place = front ++ [name] := hplace
      have hold : w.top.get? (front ++ [name]) = some old := hholds
      have hbelow : w.top.face? (front ++ name :: []) ≠ none := by
        rw [face?, hold]
        simp
      have hfolder := face?_of_below hbelow
      obtain ⟨children, hchildren⟩ := face?_eq_folder_iff.mp hfolder
      have hlookup := hold
      rw [get?_child hchildren] at hlookup
      refine ⟨(htidy front children hchildren).proper _ (mem_of_lookup hlookup), hfolder, ?_⟩
      rw [ne_eq, face?_eq_folder_iff, hold]
      rintro ⟨inner, heq⟩
      obtain rfl := Option.some.inj heq
      exact hopen _ _ rfl
  | free place n asFolder =>
      obtain ⟨rfl, hn⟩ := List.append_inj' hplace rfl
      obtain rfl : n = name := by simpa using hn
      obtain ⟨children, hfolder, hnone⟩ := hholds
      refine ⟨Workspace.properName_of_resolve h, face?_eq_folder_iff.mpr ⟨children, hfolder⟩, ?_⟩
      rw [face?_child hfolder, hnone]
      simp

/-- What is moved, if it is no folder, goes from its place into a folder that is still there
without it. -/
theorem Moved.exists_folder {source target : String} {front : List String} {name : String}
    {entry : Entry} (h : Moved source target front name entry w w') (hentry : entry.face ≠ .folder)
    (htidy : w.top.Tidy) (haim : w.terrain.aim false target = some (front ++ [name])) :
    ∃ back n children, w.terrain.aim false source = some (back ++ [n])
      ∧ w.top.face? (back ++ [n]) = some entry.face ∧ back ++ [n] ≠ front ++ [name]
      ∧ w' = { w with top := Entry.put front name entry (Entry.erase back n w.top) }
      ∧ (Entry.erase back n w.top).get? front = some (.folder children)
      ∧ ProperName name ∧ w.top.face? (front ++ [name]) ≠ some .folder := by
  obtain ⟨⟨back, n, hsource, hne, heq⟩, spot, htarget, hopen⟩ := h
  have hspot : spot.place = front ++ [name] :=
    Option.some.inj ((Workspace.aim_of_resolve htarget).symm.trans haim)
  obtain ⟨hname, hfolder, hnotFolder⟩ := target_of_resolve htidy htarget hspot hopen
  have hthere : w.top.get? (back ++ [n]) = some entry :=
    Workspace.holds_of_walk (Workspace.walk_of_resolve hsource)
  have hface : w.top.face? (back ++ [n]) = some entry.face := by
    rw [Entry.face?, hthere]
    rfl
  have hfront : (Entry.erase back n w.top).face? front = some .folder := by
    rw [face?_erase, if_neg, hfolder]
    -- Nothing is below what is moved, so the folder is not.
    rintro ⟨more, rfl⟩
    cases more with
    | nil =>
        rw [List.append_nil, hface] at hfolder
        exact hentry (Option.some.inj hfolder)
    | cons m more =>
        have habove := face?_of_below (by rw [hfolder]; simp)
        rw [hface] at habove
        exact hentry (Option.some.inj habove)
  obtain ⟨children, hchildren⟩ := face?_eq_folder_iff.mp hfront
  exact ⟨back, n, children, Workspace.aim_of_resolve hsource, hface, hne, heq, hchildren, hname,
    hnotFolder⟩

/-- A file that is moved changes its old place and its new one. -/
theorem Moved.alters {source target : String} {front : List String} {name : String}
    {content : ByteArray} (h : Moved source target front name (.file content) w w')
    (htidy : w.top.Tidy) (haim : w.terrain.aim false target = some (front ++ [name]))
    (hlink : w.link? (front ++ [name]) = none) :
    w.Alters (fun q => w.terrain.aim false source = some q ∨ q = front ++ [name])
      (fun _ => False) w' := by
  obtain ⟨back, n, children, hsource, hfile, -, rfl, hchildren, hname, hnotFolder⟩ :=
    h.exists_folder (by simp [face]) htidy haim
  have herase := Workspace.alters_eraseFile hfile
  have hbelow : ∀ m more, (Entry.erase back n w.top).face? (front ++ name :: m :: more) = none := by
    intro m more
    rw [face?_erase]
    split
    · rfl
    · rw [List.append_cons]
      exact face?_below hnotFolder m more
  have hold : Workspace.link? { w with top := Entry.erase back n w.top } (front ++ [name]) = none :=
    (congrFun (congrArg Terrain.links herase.terrain) _).trans hlink
  have hput := Workspace.alters_put hchildren hname (tidy_file content) (by simp [face])
    (by simp [face?, get?]) hold hbelow
  refine (herase.mono (fun q hq => ?_) (by simp)).trans (hput.mono (fun q hq => .inr hq) (by simp))
  exact .inl (hq ▸ hsource)

/-- What is moved, if it is no folder, is in its new place and no longer in its old one. -/
theorem Moved.face? {source target : String} {front origin : List String} {name : String}
    {entry : Entry} (h : Moved source target front name entry w w') (hentry : entry.face ≠ .folder)
    (htidy : w.top.Tidy) (haim : w.terrain.aim false target = some (front ++ [name]))
    (hsource : w.terrain.aim false source = some origin) :
    w'.top.face? (front ++ [name]) = some entry.face ∧ w'.top.face? origin = none
      ∧ w.top.face? (front ++ [name]) ≠ some .folder := by
  obtain ⟨back, n, children, horigin, hface, hne, rfl, hchildren, -, hnotFolder⟩ :=
    h.exists_folder hentry htidy haim
  obtain rfl := Option.some.inj (horigin.symm.trans hsource)
  refine ⟨?_, ?_, hnotFolder⟩
  · rw [face?_put hchildren, if_pos (List.prefix_refl _)]
    simp [Entry.face?, get?]
  · rw [face?_put hchildren, if_neg, face?_erase, if_pos (List.prefix_refl _)]
    -- What is in the place of the file has nothing below it, so it does not hold the old place.
    rintro ⟨more, hmore⟩
    cases more with
    | nil => exact hne (by simpa using hmore.symm)
    | cons m more =>
        have hbelow : w.top.face? (front ++ [name] ++ m :: more) ≠ none := by
          rw [hmore, hface]
          simp
        exact hnotFolder (face?_of_below hbelow)

/-- Nothing else changes when something is moved that is no folder. -/
theorem Moved.face?_of_ne {source target : String} {front origin q : List String} {name : String}
    {entry : Entry} (h : Moved source target front name entry w w') (hentry : entry.face ≠ .folder)
    (htidy : w.top.Tidy) (haim : w.terrain.aim false target = some (front ++ [name]))
    (hsource : w.terrain.aim false source = some origin) (hq : q ≠ front ++ [name])
    (horigin : q ≠ origin) : w'.top.face? q = w.top.face? q := by
  obtain ⟨back, n, children, hplace, hface, -, rfl, hchildren, -, hnotFolder⟩ :=
    h.exists_folder hentry htidy haim
  obtain rfl := Option.some.inj (hplace.symm.trans hsource)
  -- Neither what is moved nor what is in its new place has anything below it.
  by_cases htarget : front ++ [name] <+: q
  · obtain ⟨_ | ⟨m, more⟩, rfl⟩ := htarget
    · simp at hq
    · have hnone : entry.face? (m :: more) = none := by
        cases entry with
        | folder kids => exact absurd rfl hentry
        | _ => rfl
      rw [face?_put hchildren, if_pos (List.prefix_append _ _), face?_below hnotFolder]
      have hdrop : (front ++ [name] ++ m :: more).drop (front.length + 1) = m :: more := by
        rw [List.drop_left' (by simp)]
      rw [hdrop, hnone]
  · rw [face?_put hchildren, if_neg htarget, face?_erase]
    split
    · next hbelow =>
        obtain ⟨_ | ⟨m, more⟩, rfl⟩ := hbelow
        · simp at horigin
        · rw [face?_below]
          rw [hface]
          exact fun heq => hentry (Option.some.inj heq)
    · rfl

/-- Folders stay when something is moved that is none. -/
theorem Moved.folders {source target : String} {front : List String} {name : String}
    {entry : Entry} (h : Moved source target front name entry w w') (hentry : entry.face ≠ .folder)
    (htidy : w.top.Tidy) (haim : w.terrain.aim false target = some (front ++ [name]))
    (q : List String) (hq : w.top.face? q = some .folder) : w'.top.face? q = some .folder := by
  obtain ⟨back, n, -, hsource, hface, -, -, -, -, hnotFolder⟩ := h.exists_folder hentry htidy haim
  rw [h.face?_of_ne hentry htidy haim hsource, hq]
  · rintro rfl
    exact hnotFolder hq
  · rintro rfl
    rw [hface] at hq
    exact hentry (Option.some.inj hq)

/-- Moving a file either does nothing or moves it. -/
theorem renameFile_cases {source target : String} {front : List String} {name : String}
    {r : Except FileFault Unit} (haim : w.terrain.aim false target = some (front ++ [name]))
    (h : (renameFile source target).runOn w = (r, w')) :
    (w' = w ∧ (r = .ok () → w.terrain.aim false source = w.terrain.aim false target))
      ∨ r = .ok () ∧ ∃ entry, Moved source target front name entry w w' := by
  rw [renameFile, runOn_bind, runOn_resolve] at h
  cases hsource : w.resolve false source with
  | error fault =>
      rw [hsource] at h
      obtain ⟨rfl, rfl⟩ := Prod.mk.inj h
      exact .inl ⟨rfl, by simp⟩
  | ok start =>
      rw [hsource] at h
      cases start with
      | free place n asFolder =>
          obtain ⟨rfl, rfl⟩ := Prod.mk.inj h
          exact .inl ⟨rfl, by simp⟩
      | taken origin entry =>
          simp only at h
          rw [runOn_bind, runOn_resolve] at h
          cases htarget : w.resolve false target with
          | error fault =>
              rw [htarget] at h
              obtain ⟨rfl, rfl⟩ := Prod.mk.inj h
              exact .inl ⟨rfl, by simp⟩
          | ok spot =>
              have hspot := (Workspace.aim_of_resolve htarget).symm.trans haim
              have hmove : ∀ {next : FileAction FileFault Unit}, origin ≠ front ++ [name] →
                  (∀ place children, spot ≠ .taken place (.folder children)) →
                  (∀ w, next.runOn w
                    = (.ok (), { w with top := Entry.put front name entry w.top })) →
                  (do eraseAt origin; next).runOn w = (r, w') → (w' = w ∧ r = .error .busy)
                    ∨ r = .ok () ∧ Moved source target front name entry w w' := by
                intro next hne hopen hnext hrun
                rcases eraseAt_then_cases hnext hrun with hbusy | ⟨hok, back, n, rfl, hw'⟩
                · exact .inl hbusy
                · exact .inr ⟨hok, ⟨back, n, hsource, hne, hw'⟩, spot, htarget, hopen⟩
              have hfinish : (w' = w ∧ r = .error .busy)
                  ∨ r = .ok () ∧ Moved source target front name entry w w' →
                  (w' = w ∧ (r = .ok () → w.terrain.aim false source = w.terrain.aim false target))
                    ∨ r = .ok () ∧ ∃ entry, Moved source target front name entry w w' := by
                rintro (⟨rfl, rfl⟩ | ⟨hok, hmoved⟩)
                · exact .inl ⟨rfl, by simp⟩
                · exact .inr ⟨hok, entry, hmoved⟩
              have htaken : ∀ old, old.face ≠ .folder → spot = .taken (front ++ [name]) old →
                  (if front ++ [name] = origin then pure ()
                    else do eraseAt origin; putAt (front ++ [name]) entry :
                      FileAction FileFault Unit).runOn w = (r, w') →
                  (w' = w ∧ (r = .ok () → w.terrain.aim false source = w.terrain.aim false target))
                    ∨ r = .ok () ∧ ∃ entry, Moved source target front name entry w w' := by
                rintro old hold rfl hrun
                split at hrun
                · next heq =>
                    obtain ⟨rfl, rfl⟩ := Prod.mk.inj hrun
                    refine .inl ⟨rfl, fun _ => ?_⟩
                    rw [haim, Workspace.aim_of_resolve hsource, Spot.place, heq]
                · next hne =>
                    refine hfinish (hmove (Ne.symm hne) ?_ (runOn_putAt front name entry) hrun)
                    rintro place children heq
                    obtain ⟨-, rfl⟩ := Spot.taken.inj heq
                    exact hold rfl
              rw [htarget] at h
              rcases spot with ⟨place, content | link | children⟩ | ⟨place, n, _ | _⟩
              · obtain rfl : place = front ++ [name] := Option.some.inj hspot
                exact htaken _ (by simp [face]) rfl h
              · obtain rfl : place = front ++ [name] := Option.some.inj hspot
                exact htaken _ (by simp [face]) rfl h
              · obtain ⟨rfl, rfl⟩ := Prod.mk.inj h
                exact .inl ⟨rfl, by simp⟩
              · obtain ⟨rfl, hn⟩ := List.append_inj' (Option.some.inj hspot) rfl
                obtain rfl : n = name := by simpa using hn
                have hfree := Workspace.holds_of_walk (Workspace.walk_of_resolve htarget)
                obtain ⟨children, hfolder, hnone⟩ := hfree
                refine hfinish (hmove ?_ (by simp) (fun _ => rfl) h)
                rintro rfl
                have hthere : w.top.get? (place ++ [n]) = some entry :=
                  Workspace.holds_of_walk (Workspace.walk_of_resolve hsource)
                rw [get?_child hfolder, hnone] at hthere
                simp at hthere
              · obtain ⟨rfl, rfl⟩ := Prod.mk.inj h
                exact .inl ⟨rfl, by simp⟩

theorem reads_readText (path : String) (w : Workspace) : ((readText path).runOn w).2 = w := by
  rw [readText, runOn_bind]
  have hreads := reads_readBytes path w
  cases hread : (readBytes path).runOn w with
  | mk r between =>
      rw [hread] at hreads
      obtain rfl : between = w := hreads
      cases r with
      | error fault => rfl
      | ok content =>
          dsimp only
          cases String.fromUTF8? content <;> rfl

/-- A listing gives the children of the folder that the path leads to. -/
theorem listFolder_eq_ok {listing : List (String × EntryKind)}
    (h : (listFolder path).runOn w = (.ok listing, w')) : w' = w
      ∧ ∃ place children, w.resolve true path = .ok (.taken place (.folder children))
        ∧ listing = children.map fun child => (child.1, child.2.kind) := by
  rw [listFolder, runOn_bind, runOn_resolve] at h
  cases hresolve : w.resolve true path with
  | error fault =>
      rw [hresolve] at h
      cases congrArg Prod.fst h
  | ok spot =>
      rw [hresolve] at h
      rcases spot with ⟨place, content | target | children⟩ | ⟨place, name, asFolder⟩
      · cases congrArg Prod.fst h
      · cases congrArg Prod.fst h
      · obtain ⟨hlisting, rfl⟩ := Prod.mk.inj h
        exact ⟨rfl, place, children, rfl, (Except.ok.inj hlisting).symm⟩
      · cases congrArg Prod.fst h

theorem reads_listFolder (path : String) (w : Workspace) : ((listFolder path).runOn w).2 = w := by
  rw [listFolder, runOn_bind, runOn_resolve]
  cases w.resolve true path with
  | error fault => rfl
  | ok spot => rcases spot with ⟨_, _ | _ | _⟩ | _ <;> rfl

theorem does_listFolder (path : String) :
    Does t may make (listFolder path) fun listing => ∀ item ∈ listing, ProperName item.1 := by
  intro w r w' ht htidy hrun
  have hreads := reads_listFolder path w
  rw [hrun] at hreads
  obtain rfl : w' = w := hreads
  refine ⟨.refl _ _ _, ?_⟩
  rintro listing rfl item hitem
  obtain ⟨-, place, children, hresolve, rfl⟩ := listFolder_eq_ok hrun
  obtain ⟨child, hchild, rfl⟩ := List.mem_map.mp hitem
  have hfolder : w'.top.get? place = some (.folder children) :=
    Workspace.holds_of_walk (Workspace.walk_of_resolve hresolve)
  exact (htidy place children hfolder).proper child hchild

end FileAction

end CanvasFlutter
