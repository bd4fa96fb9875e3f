import Mathlib.Data.List.Sort
import CanvasFlutter.Proofs.Workspace.View

namespace CanvasFlutter

/-!
# `CanvasFlutter.Proofs.Workspace.Tour` — the places of a tree in order

A tour of a tree names all places below a folder but links, each folder before what it holds and
siblings in the order of their names. That is the ascending order of places, so a tour is known
once it is known what is in it.

## Contents
- **Induction.** `Entry.inductionOn`: a folder after its children.
- **Tours.** `Entry.tour`, `Entry.tourAll`; `mem_tourAll_iff`, `pairwise_tourAll`.
- **Extensionality.** `eq_of_face?`: a tidy tree is known by its faces.
-/

namespace Entry

/-! ## Induction -/

mutual

/-- What holds of files and links, and of a folder if it holds of all its children, holds of every
entry. -/
@[elab_as_elim]
theorem inductionOn {motive : Entry → Prop} (file : ∀ content, motive (.file content))
    (link : ∀ target, motive (.link target))
    (folder : ∀ children, (∀ child ∈ children, motive child.2) → motive (.folder children)) :
    (entry : Entry) → motive entry
  | .file content => file content
  | .link target => link target
  | .folder children => folder children (inductionOnAll file link folder children)

theorem inductionOnAll {motive : Entry → Prop} (file : ∀ content, motive (.file content))
    (link : ∀ target, motive (.link target))
    (folder : ∀ children, (∀ child ∈ children, motive child.2) → motive (.folder children)) :
    (children : List (String × Entry)) → ∀ child ∈ children, motive child.2
  | [] => by simp
  | (_, entry) :: rest => List.forall_mem_cons.mpr
      ⟨inductionOn file link folder entry, inductionOnAll file link folder rest⟩

end

/-! ## Tours -/

mutual

/-- An entry and all below it, each with the names that lead to it, without links. -/
def tour : Entry → List (List String × EntryKind)
  | .file _ => [([], .file)]
  | .link _ => []
  | .folder children => ([], .folder) :: tourAll children

/-- All that the children of a folder are and hold. -/
def tourAll : List (String × Entry) → List (List String × EntryKind)
  | [] => []
  | (name, entry) :: rest =>
      (tour entry).map (fun item => (name :: item.1, item.2)) ++ tourAll rest

end

variable {children : List (String × Entry)} {q : List String} {k : EntryKind}

theorem mem_tourAll_iff_exists : (q, k) ∈ tourAll children
    ↔ ∃ child ∈ children, ∃ rest, q = child.1 :: rest ∧ (rest, k) ∈ child.2.tour := by
  induction children with
  | nil => simp [tourAll]
  | cons first others ih =>
      obtain ⟨name, entry⟩ := first
      rw [tourAll, List.mem_append, ih, List.mem_map]
      constructor
      · rintro (⟨item, hitem, heq⟩ | ⟨child, hchild, hrest⟩)
        · obtain ⟨rfl, rfl⟩ := Prod.mk.inj heq
          exact ⟨(name, entry), by simp, item.1, rfl, hitem⟩
        · exact ⟨child, by simp [hchild], hrest⟩
      · rintro ⟨child, hchild, rest, rfl, hrest⟩
        rcases List.mem_cons.mp hchild with rfl | hchild
        · exact .inl ⟨(rest, k), hrest, rfl⟩
        · exact .inr ⟨child, hchild, rest, rfl, hrest⟩

theorem mem_iff_lookup (h : Listed children) {name : String} {entry : Entry} :
    (name, entry) ∈ children ↔ children.lookup name = some entry :=
  ⟨fun hmem => h.lookup_of_mem hmem, mem_of_lookup⟩

/-- A tour of a tidy tree names what is there, and no links. -/
theorem mem_tour_iff {entry : Entry} (h : entry.Tidy) : (q, k) ∈ entry.tour
    ↔ ∃ found, entry.get? q = some found ∧ found.kind = k ∧ k ≠ .link := by
  induction entry using inductionOn generalizing q with
  | file content =>
      cases q with
      | nil =>
          simp only [tour, get?, kind, List.mem_singleton, Prod.mk.injEq, true_and]
          grind
      | cons name rest => simp [tour, get?]
  | link target =>
      cases q with
      | nil =>
          simp only [tour, get?, kind, List.not_mem_nil, false_iff]
          grind
      | cons name rest => simp [tour, get?]
  | folder children ih =>
      obtain ⟨hlisted, hinner⟩ := tidy_folder_iff.mp h
      rw [tour, List.mem_cons, mem_tourAll_iff_exists]
      cases q with
      | nil =>
          simp only [get?, kind]
          grind
      | cons name rest =>
          have hstep : (∃ child ∈ children, ∃ rest', name :: rest = child.1 :: rest'
              ∧ (rest', k) ∈ child.2.tour)
              ↔ ∃ entry, children.lookup name = some entry ∧ (rest, k) ∈ entry.tour := by
            constructor
            · rintro ⟨⟨n, entry⟩, hchild, rest', heq, hrest⟩
              obtain ⟨rfl, rfl⟩ := List.cons.inj heq
              exact ⟨entry, (mem_iff_lookup hlisted).mp hchild, hrest⟩
            · rintro ⟨entry, hentry, hrest⟩
              exact ⟨(name, entry), mem_of_lookup hentry, rest, rfl, hrest⟩
          have hnil : (name :: rest, k) ≠ ([], EntryKind.folder) := by simp
          rw [hstep, get?, or_iff_right hnil]
          constructor
          · rintro ⟨entry, hentry, hrest⟩
            have hmem := mem_of_lookup hentry
            obtain ⟨found, hfound, hkind⟩ := (ih _ hmem (hinner name entry hentry)).mp hrest
            exact ⟨found, by rw [hentry, Option.bind_some, hfound], hkind⟩
          · rintro ⟨found, hfound, hkind⟩
            obtain ⟨entry, hentry, hrest⟩ := Option.bind_eq_some_iff.mp hfound
            have hmem := mem_of_lookup hentry
            exact ⟨entry, hentry, (ih _ hmem (hinner name entry hentry)).mpr ⟨found, hrest, hkind⟩⟩

/-- What a tour of a folder's children names is below the folder. -/
theorem mem_tourAll_iff (h : Tidy (.folder children)) : (q, k) ∈ tourAll children
    ↔ q ≠ [] ∧ ∃ found, (Entry.folder children).get? q = some found ∧ found.kind = k ∧ k ≠ .link := by
  have hmem := mem_tour_iff (q := q) (k := k) h
  rw [tour, List.mem_cons] at hmem
  constructor
  · intro hq
    refine ⟨?_, hmem.mp (.inr hq)⟩
    rintro rfl
    simp [mem_tourAll_iff_exists] at hq
  · rintro ⟨hne, hfound⟩
    exact (hmem.mpr hfound).resolve_left fun heq => hne (Prod.mk.inj heq).1

/-- A tour of a tidy tree goes through places in ascending order. -/
theorem pairwise_tour {entry : Entry} (h : entry.Tidy) :
    entry.tour.Pairwise fun a b => a.1 < b.1 := by
  induction entry using inductionOn with
  | file content => simp [tour]
  | link target => simp [tour]
  | folder children ih =>
      obtain ⟨hlisted, hinner⟩ := tidy_folder_iff.mp h
      have hchild : ∀ child ∈ children, child.2.tour.Pairwise fun a b => a.1 < b.1 :=
        fun child hmem => ih child hmem (hinner _ _ (hlisted.lookup_of_mem hmem))
      have hall : (tourAll children).Pairwise fun a b => a.1 < b.1 := by
        have hascending := hlisted.ascending
        clear h hlisted hinner ih
        induction children with
        | nil => simp [tourAll]
        | cons first rest ih =>
            obtain ⟨name, entry⟩ := first
            rw [List.forall_mem_cons] at hchild
            obtain ⟨hfirst, hrest⟩ := List.pairwise_cons.mp hascending
            rw [tourAll, List.pairwise_append]
            refine ⟨?_, ih hchild.2 hrest, ?_⟩
            · exact List.pairwise_map.mpr (hchild.1.imp fun hlt => List.Lex.cons hlt)
            · rintro item hitem ⟨q, k⟩ hother
              obtain ⟨inner, -, rfl⟩ := List.mem_map.mp hitem
              obtain ⟨child, hmem, more, rfl, -⟩ := mem_tourAll_iff_exists.mp hother
              exact List.Lex.rel (hfirst child hmem)
      rw [tour, List.pairwise_cons]
      refine ⟨fun ⟨q, k⟩ hq => ?_, hall⟩
      obtain ⟨child, -, more, rfl, -⟩ := mem_tourAll_iff_exists.mp hq
      exact List.Lex.nil

theorem pairwise_tourAll (h : Tidy (.folder children)) :
    (tourAll children).Pairwise fun a b => a.1 < b.1 := by
  have htour := pairwise_tour h
  rw [tour, List.pairwise_cons] at htour
  exact htour.2

/-! ## Extensionality -/

/-- Children that are listed are known by what their names name. -/
theorem eq_of_lookup {others : List (String × Entry)} (h : Listed children) (h' : Listed others)
    (hlookup : ∀ n, children.lookup n = others.lookup n) : children = others := by
  have hasymm : Std.Asymm fun a b : String × Entry => a.1 < b.1 := ⟨fun _ _ => String.lt_asymm⟩
  refine h.ascending.eq_of_mem_iff h'.ascending fun child => ?_
  rw [mem_iff_lookup h, mem_iff_lookup h', hlookup]

/-- **A tidy tree is known by its faces.** -/
theorem eq_of_face? {entry other : Entry} (h : entry.Tidy) (h' : other.Tidy)
    (hface : ∀ q, entry.face? q = other.face? q) : entry = other := by
  induction entry using inductionOn generalizing other with
  | file content =>
      have hself := (hface []).symm.trans (show (Entry.file content).face? [] = _ from rfl)
      exact (Option.some.inj (face?_eq_file_iff.mp hself)).symm
  | link target =>
      have hself := (hface []).symm.trans (show (Entry.link target).face? [] = _ from rfl)
      exact (Option.some.inj (face?_eq_link_iff.mp hself)).symm
  | folder children ih =>
      have hself := (hface []).symm.trans (show (Entry.folder children).face? [] = _ from rfl)
      obtain ⟨others, hothers⟩ := face?_eq_folder_iff.mp hself
      obtain rfl : other = .folder others := Option.some.inj hothers
      obtain ⟨hlisted, hinner⟩ := tidy_folder_iff.mp h
      obtain ⟨hlisted', hinner'⟩ := tidy_folder_iff.mp h'
      refine congrArg Entry.folder (eq_of_lookup hlisted hlisted' fun n => ?_)
      have hchild : ∀ more, ((children.lookup n).bind (get? more)).map face
          = ((others.lookup n).bind (get? more)).map face := fun more => hface (n :: more)
      cases hfirst : children.lookup n with
      | none =>
          have hnone := hchild []
          rw [hfirst] at hnone
          cases hsecond : others.lookup n with
          | none => rfl
          | some e => simp [hsecond, get?] at hnone
      | some e =>
          cases hsecond : others.lookup n with
          | none =>
              have hnone := hchild []
              simp [hfirst, hsecond, get?] at hnone
          | some f =>
              refine congrArg some (ih (n, e) (mem_of_lookup hfirst) (hinner n e hfirst)
                (hinner' n f hsecond) fun more => ?_)
              have hmore := hchild more
              rwa [hfirst, hsecond] at hmore

/-- Where two tidy trees have the same faces they have the same entry. -/
theorem get?_eq_of_face? {top other : Entry} {place : List String} (h : top.Tidy) (h' : other.Tidy)
    (hface : ∀ q, other.face? (place ++ q) = top.face? (place ++ q)) :
    other.get? place = top.get? place := by
  have hplace := hface []
  rw [List.append_nil, face?, face?] at hplace
  cases hfirst : top.get? place with
  | none =>
      rw [hfirst] at hplace
      simpa using hplace
  | some entry =>
      cases hsecond : other.get? place with
      | none => simp [hfirst, hsecond] at hplace
      | some found =>
          refine congrArg some (eq_of_face? (h'.entry hsecond) (h.entry hfirst) fun q => ?_)
          have hbelow := hface q
          rwa [face?, face?, get?_append, get?_append, hfirst, hsecond] at hbelow

end Entry

end CanvasFlutter
