import CanvasFlutter.Proofs.Workspace.Outcome
import CanvasFlutter.Proofs.Workspace.Tour

namespace CanvasFlutter

/-!
# `CanvasFlutter.Proofs.Workspace.Overlay` — things set one after another

A file that is copied or written into a folder, and a folder that is made there, set one thing and
make the folders on the way to it. After a sequence of such settings the folder is what it was,
overlaid with the things that were set.

## Contents
- **Settings.** `Sets`, `SetsAll`.
- **Overlays.** `overlay`; `SetsAll.face_below`.
- **Copies.** `overlay_tour`: a folder overlaid with a whole tour is what the tour went through.
-/

open Entry

/-! ## Settings -/

variable {w v w' : Workspace} {base names q : List String} {face : Face}
variable {items : List (List String × Face)}

/-- Something has been set at names below a place, and folders made on the way where nothing was. -/
structure Sets (base names : List String) (face : Face) (w w' : Workspace) : Prop where
  alters : w.Alters (· = base ++ names)
    (fun q => ∃ front, front <+: names ∧ front ≠ [] ∧ q = base ++ front) w'
  self : w'.top.face? (base ++ names) = some face

/-- A setting changes nothing but what is below its base. -/
theorem Sets.face_outside (h : Sets base names face w w') (hq : ¬ base <+: q) :
    w'.top.face? q = w.top.face? q := by
  rcases h.alters.face q (fun heq => hq (heq ▸ List.prefix_append _ _)) with
    hsame | ⟨⟨front, -, -, rfl⟩, -⟩
  · exact hsame
  · exact absurd (List.prefix_append _ _) hq

/-- Things have been set one after another. -/
inductive SetsAll (base : List String) : List (List String × Face) → Workspace → Workspace → Prop
  | nil (w : Workspace) : SetsAll base [] w w
  | cons {w v w' : Workspace} {item : List String × Face} {items : List (List String × Face)}
      (first : Sets base item.1 item.2 w v) (rest : SetsAll base items v w') :
      SetsAll base (item :: items) w w'

namespace SetsAll

theorem append {more : List (List String × Face)} (h : SetsAll base items w v)
    (h' : SetsAll base more v w') : SetsAll base (items ++ more) w w' := by
  induction h with
  | nil w => exact h'
  | cons first _ ih => exact .cons first (ih h')

theorem alters (h : SetsAll base items w w') :
    w.Alters (fun q => ∃ item ∈ items, q = base ++ item.1)
      (fun q => ∃ item ∈ items, ∃ front, front <+: item.1 ∧ front ≠ [] ∧ q = base ++ front) w' := by
  induction h with
  | nil w => exact .refl _ _ w
  | @cons w v w' item items first rest ih =>
      refine (first.alters.mono ?_ ?_).trans (ih.mono ?_ ?_)
      · exact fun q hq => ⟨item, by simp, hq⟩
      · exact fun q hq => .inr ⟨item, by simp, hq⟩
      · exact fun q ⟨other, hother, hq⟩ => ⟨other, by simp [hother], hq⟩
      · exact fun q ⟨other, hother, hq⟩ => .inr ⟨other, by simp [hother], hq⟩

/-- What was there and is not set stays. -/
theorem face_of_ne_none (h : SetsAll base items w w') (hq : ∀ item ∈ items, q ≠ base ++ item.1)
    (hface : w.top.face? q ≠ none) : w'.top.face? q = w.top.face? q :=
  h.alters.face_of_ne_none (fun ⟨item, hitem, heq⟩ => hq item hitem heq) hface

/-- What is set stays if nothing is set twice. -/
theorem face_item (h : SetsAll base items w w') (hdistinct : items.Pairwise (·.1 ≠ ·.1))
    {item : List String × Face} (hitem : item ∈ items) :
    w'.top.face? (base ++ item.1) = some item.2 := by
  induction h with
  | nil w => cases hitem
  | @cons w v w' first items hfirst rest ih =>
      obtain ⟨hne, hdistinct⟩ := List.pairwise_cons.mp hdistinct
      rcases List.mem_cons.mp hitem with rfl | hitem
      · have hkept := rest.face_of_ne_none (q := base ++ item.1)
          (fun other hother heq => hne other hother (List.append_cancel_left heq))
          (by rw [hfirst.self]; simp)
        exact hkept.trans hfirst.self
      · exact ih hdistinct hitem

/-- What holds something that is set is a folder. -/
theorem face_above (h : SetsAll base items w w') (hdistinct : items.Pairwise (·.1 ≠ ·.1))
    {item : List String × Face} (hitem : item ∈ items) (hq : q <+: item.1) (hne : q ≠ item.1) :
    w'.top.face? (base ++ q) = some .folder := by
  obtain ⟨more, hmore⟩ := hq
  cases more with
  | nil => exact absurd (by simpa using hmore) hne
  | cons n more =>
      have hbelow : w'.top.face? (base ++ q ++ n :: more) ≠ none := by
        rw [List.append_assoc, hmore, h.face_item hdistinct hitem]
        simp
      exact face?_of_below hbelow

/-- What holds nothing that is set stays. -/
theorem face_other (h : SetsAll base items w w') (hq : ∀ item ∈ items, ¬ q <+: item.1) :
    w'.top.face? (base ++ q) = w.top.face? (base ++ q) := by
  have hmay : ¬ ∃ item ∈ items, base ++ q = base ++ item.1 := by
    rintro ⟨item, hitem, heq⟩
    exact hq item hitem (List.append_cancel_left heq ▸ List.prefix_refl _)
  rcases h.alters.face _ hmay with hsame | ⟨⟨item, hitem, front, hfront, -, heq⟩, -⟩
  · exact hsame
  · exact absurd (List.append_cancel_left heq ▸ hfront) (hq item hitem)

end SetsAll

/-! ## Overlays -/

/-- What is at names once things have been set over what was there before. -/
def overlay (lower : List String → Option Face) (items : List (List String × Face))
    (q : List String) : Option Face :=
  match items.lookup q with
  | some face => some face
  | none => if items.any fun item => q.isPrefixOf item.1 then some .folder else lower q

theorem overlay_congr {lower lower' : List String → Option Face} (h : lower q = lower' q) :
    overlay lower items q = overlay lower' items q := by
  unfold overlay
  rw [h]

theorem lookup_eq_some_of_mem {item : List String × Face} (hitem : item ∈ items)
    (hdistinct : items.Pairwise (·.1 ≠ ·.1)) : items.lookup item.1 = some item.2 := by
  obtain ⟨before, after, rfl⟩ := List.append_of_mem hitem
  refine List.lookup_eq_some_iff.mpr ⟨before, after, rfl, fun other hother => ?_⟩
  have hne := (List.pairwise_append.mp hdistinct).2.2 other hother item (by simp)
  simpa using hne.symm

theorem mem_of_lookup_eq_some (h : items.lookup q = some face) : (q, face) ∈ items := by
  obtain ⟨before, after, rfl, -⟩ := List.lookup_eq_some_iff.mp h
  simp

theorem not_mem_of_lookup_eq_none (h : items.lookup q = none) {item : List String × Face}
    (hitem : item ∈ items) : q ≠ item.1 := by
  intro heq
  rw [List.lookup_eq_none_iff] at h
  simpa [heq] using h item hitem

/-- **After settings a folder is overlaid with what was set.** -/
theorem SetsAll.face_below (h : SetsAll base items w w') (hdistinct : items.Pairwise (·.1 ≠ ·.1))
    (q : List String) :
    w'.top.face? (base ++ q) = overlay (fun q => w.top.face? (base ++ q)) items q := by
  unfold overlay
  split
  · next face hlookup => exact h.face_item hdistinct (mem_of_lookup_eq_some hlookup)
  · next hnone =>
      split
      · next hany =>
          obtain ⟨item, hitem, hprefix⟩ := List.any_eq_true.mp hany
          exact h.face_above hdistinct hitem (List.isPrefixOf_iff_prefix.mp hprefix)
            (not_mem_of_lookup_eq_none hnone hitem)
      · next hany =>
          refine h.face_other fun item hitem hprefix => hany ?_
          exact List.any_eq_true.mpr ⟨item, hitem, List.isPrefixOf_iff_prefix.mpr hprefix⟩

/-! ## Copies -/

/-- What is there, links left out. -/
def unlinked : Option Face → Option Face
  | some (.link _) => none
  | face => face

/-- What is at names of a tree, which may be a folder. -/
def Entry.faceAt (top : Entry) (names : List String) : Face := (top.face? names).getD .folder

/-- The items of a tour with what is there. -/
def Entry.tourFaces (children : List (String × Entry)) : List (List String × Face) :=
  (tourAll children).map fun item => (item.1, faceAt (.folder children) item.1)

variable {children : List (String × Entry)}

theorem pairwise_tourFaces (h : Tidy (.folder children)) :
    (tourFaces children).Pairwise (·.1 < ·.1) :=
  List.pairwise_map.mpr (pairwise_tourAll h)

theorem distinct_tourFaces (h : Tidy (.folder children)) :
    (tourFaces children).Pairwise (·.1 ≠ ·.1) := by
  refine (pairwise_tourFaces h).imp fun {a b} hlt heq => ?_
  rw [heq] at hlt
  exact List.lt_irrefl _ hlt

theorem mem_tourFaces_iff (h : Tidy (.folder children)) : (q, face) ∈ tourFaces children
    ↔ q ≠ [] ∧ unlinked ((Entry.folder children).face? q) = some face := by
  unfold tourFaces faceAt face?
  constructor
  · intro hmem
    obtain ⟨⟨q', k⟩, hitem, heq⟩ := List.mem_map.mp hmem
    obtain ⟨rfl, rfl⟩ := Prod.mk.inj heq
    obtain ⟨hne, found, hfound, rfl, hlink⟩ := (mem_tourAll_iff h).mp hitem
    refine ⟨hne, ?_⟩
    simp only [hfound, Option.map_some, Option.getD_some]
    cases found with
    | link target => exact absurd rfl hlink
    | _ => rfl
  · rintro ⟨hne, hface⟩
    cases hfound : (Entry.folder children).get? q with
    | none => simp [hfound, unlinked] at hface
    | some found =>
        rw [hfound, Option.map_some] at hface
        refine List.mem_map.mpr ⟨(q, found.kind), (mem_tourAll_iff h).mpr ⟨hne, found, hfound, rfl, ?_⟩, ?_⟩
        · rintro hkind
          cases found <;> simp [kind, Entry.face, unlinked] at hkind hface
        · cases found <;> simp_all [Entry.face, unlinked]

/-- **An empty folder overlaid with a tour** is what the tour went through, without its links. -/
theorem overlay_tourFaces (h : Tidy (.folder children)) (hq : q ≠ []) :
    overlay (fun _ => none) (tourFaces children) q
      = unlinked ((Entry.folder children).face? q) := by
  have hdistinct := distinct_tourFaces h
  unfold overlay
  cases hface : unlinked ((Entry.folder children).face? q) with
  | some face =>
      have hmem := (mem_tourFaces_iff h).mpr ⟨hq, hface⟩
      rw [lookup_eq_some_of_mem hmem hdistinct]
  | none =>
      have hnone : (tourFaces children).lookup q = none := by
        rw [List.lookup_eq_none_iff]
        rintro ⟨other, face⟩ hother
        obtain ⟨-, hsome⟩ := (mem_tourFaces_iff h).mp hother
        simp only [bne_iff_ne]
        rintro rfl
        rw [hface] at hsome
        cases hsome
      have hany : ((tourFaces children).any fun item => q.isPrefixOf item.1) = false := by
        rw [List.any_eq_false]
        rintro ⟨other, face⟩ hother habove
        obtain ⟨more, rfl⟩ := List.isPrefixOf_iff_prefix.mp habove
        obtain ⟨-, hsome⟩ := (mem_tourFaces_iff h).mp hother
        -- What is above an item is a folder, which is no link.
        cases more with
        | nil => simp [hface] at hsome
        | cons n more =>
            have hbelow : (Entry.folder children).face? (q ++ n :: more) ≠ none := fun hnone => by
              rw [hnone] at hsome
              cases hsome
            simp [face?_of_below hbelow, unlinked] at hface
      rw [hnone, hany]
      rfl

end CanvasFlutter
