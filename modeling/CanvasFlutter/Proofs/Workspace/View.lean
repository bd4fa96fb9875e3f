import Mathlib
import CanvasFlutter.Proofs.Workspace.Store

namespace CanvasFlutter

/-!
# `CanvasFlutter.Proofs.Workspace.View` — what is at every place of a tree

A tree is looked at through one function: the face of the entry at a place, which tells files by
their content and links by their target, and leaves out what a folder holds. Each change of a tree
has one equation about faces, and after that nobody unfolds it.

## Contents
- **Faces.** `Entry.Face`, `Entry.face?`; what has something below it is a folder.
- **Changes.** `face?_put`, `face?_erase`, `face?_clear`.
- **Tidiness.** `Entry.Tidy`: names are names and stand in order; every change keeps it.
-/

namespace Entry

/-! ## Faces -/

/-- What an entry shows of itself: everything but what a folder holds. -/
inductive Face where
  | file (content : ByteArray)
  | link (target : String)
  | folder
  deriving DecidableEq

/-- What an entry shows of itself. -/
def face : Entry → Face
  | .file content => .file content
  | .link target => .link target
  | .folder _ => .folder

/-- What is at a place. -/
def face? (place : List String) (top : Entry) : Option Face := (top.get? place).map face

variable {top : Entry} {place other more : List String} {name n : String}
variable {children : List (String × Entry)}

theorem face?_eq_none_iff : top.face? place = none ↔ top.get? place = none := by
  simp [face?]

theorem face?_eq_folder_iff :
    top.face? place = some .folder ↔ ∃ children, top.get? place = some (.folder children) := by
  rw [face?, Option.map_eq_some_iff]
  constructor
  · rintro ⟨entry, hentry, hface⟩
    cases entry with
    | folder children => exact ⟨children, hentry⟩
    | _ => simp [face] at hface
  · rintro ⟨children, hfolder⟩
    exact ⟨_, hfolder, rfl⟩

theorem face?_eq_file_iff {content : ByteArray} :
    top.face? place = some (.file content) ↔ top.get? place = some (.file content) := by
  rw [face?, Option.map_eq_some_iff]
  constructor
  · rintro ⟨entry, hentry, hface⟩
    cases entry <;> simp_all [face]
  · intro hfile
    exact ⟨_, hfile, rfl⟩

theorem face?_eq_link_iff {target : String} :
    top.face? place = some (.link target) ↔ top.get? place = some (.link target) := by
  rw [face?, Option.map_eq_some_iff]
  constructor
  · rintro ⟨entry, hentry, hface⟩
    cases entry <;> simp_all [face]
  · intro hlink
    exact ⟨_, hlink, rfl⟩

theorem get?_child (h : top.get? place = some (.folder children)) (n : String) :
    top.get? (place ++ [n]) = children.lookup n := by
  rw [get?_append, h, Option.bind_some, get?]
  cases children.lookup n <;> rfl

theorem face?_child (h : top.get? place = some (.folder children)) (n : String) :
    top.face? (place ++ [n]) = (children.lookup n).map face := by
  rw [face?, get?_child h]

/-- What has something below it is a folder. -/
theorem face?_of_below (h : top.face? (place ++ n :: more) ≠ none) :
    top.face? place = some .folder := by
  rw [face?_eq_folder_iff]
  rw [ne_eq, face?_eq_none_iff, get?_append] at h
  cases hplace : top.get? place with
  | none => simp [hplace] at h
  | some entry =>
      cases entry with
      | folder children => exact ⟨children, rfl⟩
      | _ => simp [hplace, get?] at h

/-- What holds something is there. -/
theorem face?_ne_none_above (h : top.face? place ≠ none) (hother : other <+: place) :
    top.face? other ≠ none := by
  obtain ⟨more, rfl⟩ := hother
  cases more with
  | nil => rwa [List.append_nil] at h
  | cons n more =>
      rw [face?_of_below h]
      simp

theorem face?_below (h : top.face? place ≠ some .folder) (n : String) (more : List String) :
    top.face? (place ++ n :: more) = none :=
  Classical.byContradiction fun hsome => h (face?_of_below hsome)

/-! ## Changes -/

/-- A change of a folder's children changes nothing but what is below the folder. -/
theorem face?_changeFolder (change : List (String × Entry) → List (String × Entry))
    (h : ∀ n more, other ≠ place ++ n :: more) :
    (changeFolder change place top).face? other = top.face? other := by
  induction place generalizing top other with
  | nil =>
      cases other with
      | nil => cases top <;> rfl
      | cons n more => exact absurd rfl (h n more)
  | cons first place ih =>
      cases top with
      | folder children =>
          rw [changeFolder]
          cases hfirst : children.lookup first with
          | none => rfl
          | some child =>
              cases other with
              | nil => rfl
              | cons n rest =>
                  simp only [face?, get?, lookup_setChild]
                  split
                  · next heq =>
                      subst heq
                      have hrest := @ih child rest fun m more heq => h m more (by rw [heq]; rfl)
                      simpa [face?, hfirst] using hrest
                  · rfl
      | file content => rfl
      | link target => rfl

/-- Below the folder there is what its new children are. -/
theorem get?_changeFolder_below (change : List (String × Entry) → List (String × Entry))
    (h : top.get? place = some (.folder children)) :
    (changeFolder change place top).get? (place ++ n :: more)
      = ((change children).lookup n).bind (get? more) := by
  induction place generalizing top with
  | nil =>
      obtain rfl := Option.some.inj h
      rfl
  | cons first place ih =>
      cases top with
      | folder entries =>
          obtain ⟨child, hfirst, hchild⟩ := Option.bind_eq_some_iff.mp h
          rw [List.cons_append, changeFolder, hfirst]
          simp only [get?, lookup_setChild, if_true, Option.bind_some]
          exact ih hchild
      | file content => simp [get?] at h
      | link target => simp [get?] at h

/-- Where there is no folder nothing is changed. -/
theorem changeFolder_of_not_folder (change : List (String × Entry) → List (String × Entry))
    (h : top.face? place ≠ some .folder) (other : List String) :
    (changeFolder change place top).face? other = top.face? other := by
  by_cases hbelow : ∃ n more, other = place ++ n :: more
  · obtain ⟨n, more, rfl⟩ := hbelow
    have hnew : (changeFolder change place top).face? place ≠ some .folder := by
      rwa [face?_changeFolder change (by simp)]
    rw [face?_below h, face?_below hnew]
  · exact face?_changeFolder change fun n more heq => hbelow ⟨n, more, heq⟩

theorem prefix_concat_iff :
    place ++ [name] <+: other ↔ ∃ more, other = place ++ name :: more := by
  simp [List.IsPrefix, eq_comm]

/-- An entry that is put in a folder is there with all below it, and the rest is as it was. -/
theorem face?_put (h : top.get? place = some (.folder children)) (entry : Entry) :
    (put place name entry top).face? other
      = if place ++ [name] <+: other then entry.face? (other.drop (place.length + 1))
        else top.face? other := by
  split
  · next hbelow =>
      obtain ⟨more, rfl⟩ := prefix_concat_iff.mp hbelow
      rw [face?, put, get?_changeFolder_below _ h, lookup_setChild, if_pos rfl, Option.bind_some]
      have hdrop : (place ++ name :: more).drop (place.length + 1) = more := by
        rw [List.drop_append, List.drop_eq_nil_of_le (by omega)]
        simp
      rw [hdrop, face?]
  · next hbelow =>
      by_cases hchild : ∃ n more, other = place ++ n :: more
      · obtain ⟨n, more, rfl⟩ := hchild
        have hne : n ≠ name := by
          rintro rfl
          exact hbelow (prefix_concat_iff.mpr ⟨more, rfl⟩)
        rw [face?, put, get?_changeFolder_below _ h, lookup_setChild, if_neg hne, face?,
          get?_append, h, Option.bind_some, get?]
      · exact face?_changeFolder _ fun n more heq => hchild ⟨n, more, heq⟩

theorem lookup_eraseChild (name n : String) (children : List (String × Entry)) :
    (eraseChild name children).lookup n = if n = name then none else children.lookup n := by
  induction children with
  | nil => simp [eraseChild]
  | cons first rest ih =>
      obtain ⟨m, entry⟩ := first
      rw [eraseChild, List.filter_cons]
      rw [eraseChild] at ih
      by_cases hm : m = name
      · subst hm
        rw [if_neg (by simp), ih]
        split
        · rfl
        · next hne =>
            have hbeq : (n == m) = false := by simpa using hne
            rw [List.lookup_cons, hbeq]
      · rw [if_pos (by simpa using hm), List.lookup_cons, List.lookup_cons, ih]
        split
        · next heq =>
            have hn : n = m := by simpa using heq
            rw [if_neg (hn ▸ hm)]
        · rfl

/-- An entry that is erased is gone with all below it, and the rest is as it was. -/
theorem face?_erase (place : List String) (name : String) (top : Entry) :
    (erase place name top).face? other
      = if place ++ [name] <+: other then none else top.face? other := by
  by_cases hfolder : top.face? place = some .folder
  · obtain ⟨children, hchildren⟩ := face?_eq_folder_iff.mp hfolder
    by_cases hchild : ∃ n more, other = place ++ n :: more
    · obtain ⟨n, more, rfl⟩ := hchild
      rw [face?, erase, get?_changeFolder_below _ hchildren, lookup_eraseChild]
      by_cases hn : n = name
      · subst hn
        rw [if_pos rfl, if_pos (prefix_concat_iff.mpr ⟨more, rfl⟩)]
        rfl
      · have hbelow : ¬ place ++ [name] <+: place ++ n :: more := by
          rw [prefix_concat_iff]
          rintro ⟨rest, heq⟩
          exact hn (List.cons.inj (List.append_cancel_left heq)).1
        rw [if_neg hn, if_neg hbelow, face?, get?_append, hchildren, Option.bind_some, get?]
    · rw [erase, face?_changeFolder _ fun n more heq => hchild ⟨n, more, heq⟩, if_neg]
      rintro hbelow
      obtain ⟨more, rfl⟩ := prefix_concat_iff.mp hbelow
      exact hchild ⟨name, more, rfl⟩
  · rw [erase, changeFolder_of_not_folder _ hfolder]
    split
    · next hbelow =>
        obtain ⟨more, rfl⟩ := prefix_concat_iff.mp hbelow
        exact face?_below hfolder name more
    · rfl

/-- A folder that is emptied stays, and what was below it is gone. -/
theorem face?_clear (place : List String) (top : Entry) :
    (changeFolder (fun _ => []) place top).face? other
      = if place <+: other ∧ other ≠ place then none else top.face? other := by
  by_cases hbelow : ∃ n more, other = place ++ n :: more
  · obtain ⟨n, more, rfl⟩ := hbelow
    rw [if_pos ⟨List.prefix_append _ _, by simp⟩]
    by_cases hfolder : top.face? place = some .folder
    · obtain ⟨children, hchildren⟩ := face?_eq_folder_iff.mp hfolder
      rw [face?, get?_changeFolder_below _ hchildren]
      rfl
    · rw [changeFolder_of_not_folder _ hfolder, face?_below hfolder]
  · rw [face?_changeFolder _ fun n more heq => hbelow ⟨n, more, heq⟩, if_neg]
    rintro ⟨⟨more, rfl⟩, hne⟩
    cases more with
    | nil => simp at hne
    | cons n more => exact hbelow ⟨n, more, rfl⟩

/-! ## Tidiness -/

/-- A name that an entry may have in a folder. -/
structure ProperName (name : String) : Prop where
  ne_empty : name ≠ ""
  ne_dot : name ≠ "."
  ne_dots : name ≠ ".."
  no_slash : '/' ∉ name.toList

theorem ProperName.not_blank {name : String} (h : ProperName name) :
    ¬ (name = "" ∨ name = ".") := fun hor => hor.elim h.ne_empty h.ne_dot

instance (name : String) : Decidable (ProperName name) :=
  decidable_of_iff (name ≠ "" ∧ name ≠ "." ∧ name ≠ ".." ∧ '/' ∉ name.toList)
    ⟨fun h => ⟨h.1, h.2.1, h.2.2.1, h.2.2.2⟩, fun h => ⟨h.1, h.2, h.3, h.4⟩⟩

/-- Children that a folder may have: each has a name of its own, and names ascend. -/
structure Listed (children : List (String × Entry)) : Prop where
  ascending : children.Pairwise fun a b => a.1 < b.1
  proper : ∀ child ∈ children, ProperName child.1

instance (children : List (String × Entry)) : Decidable (Listed children) :=
  decidable_of_iff
    (children.Pairwise (fun a b => a.1 < b.1) ∧ ∀ child ∈ children, ProperName child.1)
    ⟨fun h => ⟨h.1, h.2⟩, fun h => ⟨h.1, h.2⟩⟩

/-- A tree whose folders list their children. -/
def Tidy (top : Entry) : Prop :=
  ∀ place children, top.get? place = some (.folder children) → Listed children

theorem mem_of_lookup {entry : Entry} (h : children.lookup name = some entry) :
    (name, entry) ∈ children := by
  obtain ⟨before, after, rfl, -⟩ := List.lookup_eq_some_iff.mp h
  simp

theorem Listed.lookup_of_mem (h : Listed children) {child : String × Entry}
    (hmem : child ∈ children) : children.lookup child.1 = some child.2 := by
  obtain ⟨before, after, rfl⟩ := List.append_of_mem hmem
  rw [List.lookup_eq_some_iff]
  refine ⟨before, after, rfl, fun other hother => ?_⟩
  have hlt := (List.pairwise_append.mp h.ascending).2.2 other hother child (by simp)
  have hne : child.1 ≠ other.1 := by
    intro heq
    rw [heq] at hlt
    exact String.lt_irrefl _ hlt
  simpa using hne

theorem Listed.setChild (h : Listed children) (hname : ProperName name) (entry : Entry) :
    Listed (setChild name entry children) := by
  -- The names below the new one come from the list or are the new one.
  have hnames : ∀ {children : List (String × Entry)} {child},
      child ∈ Entry.setChild name entry children → child.1 = name ∨ child ∈ children := by
    intro children child hchild
    induction children with
    | nil => simp_all [Entry.setChild]
    | cons first rest ih =>
        obtain ⟨n, e⟩ := first
        rw [Entry.setChild] at hchild
        split at hchild
        · simp only [List.mem_cons] at hchild ⊢
          rcases hchild with rfl | hchild <;> simp_all
        · split at hchild
          · simp only [List.mem_cons] at hchild ⊢
            rcases hchild with rfl | hchild <;> simp_all
          · simp only [List.mem_cons] at hchild ⊢
            rcases hchild with rfl | hchild
            · exact .inr (.inl rfl)
            · exact (ih hchild).imp id .inr
  refine ⟨?_, fun child hchild => ?_⟩
  · obtain ⟨hascending, -⟩ := h
    induction children with
    | nil => simp [Entry.setChild]
    | cons first rest ih =>
        obtain ⟨n, e⟩ := first
        obtain ⟨hfirst, hrest⟩ := List.pairwise_cons.mp hascending
        rw [Entry.setChild]
        split
        · next heq => exact List.pairwise_cons.mpr ⟨heq ▸ hfirst, hrest⟩
        · next hne =>
            split
            · next hlt =>
                refine List.pairwise_cons.mpr ⟨fun child hchild => ?_, hascending⟩
                rcases List.mem_cons.mp hchild with rfl | hchild
                · exact hlt
                · exact String.lt_trans hlt (hfirst child hchild)
            · next hnot =>
                refine List.pairwise_cons.mpr ⟨fun child hchild => ?_, ih hrest⟩
                rcases hnames hchild with heq | hold
                · show n < child.1
                  grind
                · exact hfirst child hold
  · rcases hnames hchild with heq | hold
    · exact heq ▸ hname
    · exact h.proper child hold

theorem Listed.eraseChild (h : Listed children) (name : String) :
    Listed (eraseChild name children) :=
  ⟨h.ascending.filter _, fun child hchild => h.proper child (List.mem_filter.mp hchild).1⟩

theorem tidy_folder_iff : Tidy (.folder children)
    ↔ Listed children ∧ ∀ n entry, children.lookup n = some entry → Tidy entry := by
  constructor
  · intro h
    refine ⟨h [] children rfl, fun n entry hlookup place inner hinner => ?_⟩
    exact h (n :: place) inner (by rw [get?, hlookup, Option.bind_some, hinner])
  · rintro ⟨hlisted, hchildren⟩ place inner hinner
    cases place with
    | nil => cases hinner; exact hlisted
    | cons n place =>
        obtain ⟨child, hlookup, hchild⟩ := Option.bind_eq_some_iff.mp hinner
        exact hchildren n child hlookup place inner hchild

theorem tidy_file (content : ByteArray) : Tidy (.file content) := by
  intro place children h
  cases place <;> simp [get?] at h

theorem tidy_link (target : String) : Tidy (.link target) := by
  intro place children h
  cases place <;> simp [get?] at h

/-- A folder is tidy if it lists its children and they are tidy. -/
theorem tidy_folder (h : Listed children) (hinner : ∀ child ∈ children, child.2.Tidy) :
    Tidy (.folder children) :=
  tidy_folder_iff.mpr ⟨h, fun _ _ hlookup => hinner _ (mem_of_lookup hlookup)⟩

theorem tidy_newFolder : Tidy (.folder []) :=
  tidy_folder_iff.mpr ⟨⟨.nil, by simp⟩, by simp⟩

theorem Tidy.entry {entry : Entry} (h : top.Tidy) (hentry : top.get? place = some entry) :
    entry.Tidy := by
  intro more children hchildren
  exact h (place ++ more) children (by rw [get?_append, hentry, Option.bind_some, hchildren])

/-- A change of a folder that leaves it tidy leaves the tree tidy. -/
theorem Tidy.changeFolder {change : List (String × Entry) → List (String × Entry)} (h : top.Tidy)
    (hchange : ∀ children, top.get? place = some (.folder children) →
      Tidy (.folder (change children))) : (changeFolder change place top).Tidy := by
  induction place generalizing top with
  | nil =>
      cases top with
      | folder children => exact hchange children rfl
      | _ => exact h
  | cons first place ih =>
      cases top with
      | folder children =>
          obtain ⟨hlisted, hchildren⟩ := tidy_folder_iff.mp h
          rw [Entry.changeFolder]
          cases hfirst : children.lookup first with
          | none => exact h
          | some child =>
              have hproper := hlisted.proper _ (mem_of_lookup hfirst)
              refine tidy_folder_iff.mpr ⟨hlisted.setChild hproper _, fun n entry hlookup => ?_⟩
              rw [lookup_setChild] at hlookup
              split at hlookup
              · obtain rfl := Option.some.inj hlookup
                refine ih (hchildren first child hfirst) fun inner hinner => hchange inner ?_
                rw [get?, hfirst, Option.bind_some, hinner]
              · exact hchildren n entry hlookup
      | _ => exact h

theorem Tidy.put {entry : Entry} (h : top.Tidy) (hname : ProperName name) (hentry : entry.Tidy) :
    (put place name entry top).Tidy := by
  refine h.changeFolder fun children hchildren => ?_
  obtain ⟨hlisted, hinner⟩ := tidy_folder_iff.mp (h.entry hchildren)
  refine tidy_folder_iff.mpr ⟨hlisted.setChild hname entry, fun n e hlookup => ?_⟩
  rw [lookup_setChild] at hlookup
  split at hlookup
  · obtain rfl := Option.some.inj hlookup
    exact hentry
  · exact hinner n e hlookup

theorem Tidy.erase (h : top.Tidy) (place : List String) (name : String) :
    (erase place name top).Tidy := by
  refine h.changeFolder fun children hchildren => ?_
  obtain ⟨hlisted, hinner⟩ := tidy_folder_iff.mp (h.entry hchildren)
  refine tidy_folder_iff.mpr ⟨hlisted.eraseChild name, fun n e hlookup => ?_⟩
  rw [lookup_eraseChild] at hlookup
  split at hlookup
  · simp at hlookup
  · exact hinner n e hlookup

theorem Tidy.clear (h : top.Tidy) (place : List String) :
    (Entry.changeFolder (fun _ => []) place top).Tidy :=
  h.changeFolder fun _ _ => tidy_newFolder

end Entry

end CanvasFlutter
