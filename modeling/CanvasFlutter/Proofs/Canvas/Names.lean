import CanvasFlutter.Proofs.Canvas.Node

namespace CanvasFlutter

/-!
# `CanvasFlutter.Proofs.Canvas.Names` — no object has two members of one name

An object is a map from names to values. It is kept as a list, and what is read from a text never
has a name twice.

## Contents
- **Values.** `Json.HasUniqueNames`, and what it says of arrays and objects.
- **Reading.** `hasUniqueNames_parse?`.
-/

namespace Json

/-! ## Values -/

theorem Within.trans {u v w : Json} (huv : Within u v) (hvw : Within v w) : Within u w := by
  induction hvw with
  | here => exact huv
  | item _ hi ih => exact .item ih hi
  | member _ hm ih => exact .member ih hm

/-- No object in a value, at any depth, has two members of one name. -/
def HasUniqueNames (v : Json) : Prop :=
  ∀ members, Within (.object members) v → (members.map Prod.fst).Nodup

theorem HasUniqueNames.within {u v : Json} (h : v.HasUniqueNames) (huv : Within u v) :
    u.HasUniqueNames := fun members hmembers => h members (hmembers.trans huv)

theorem HasUniqueNames.item {items : List Json} (h : (Json.array items).HasUniqueNames) :
    ∀ i ∈ items, i.HasUniqueNames := fun i hi => h.within (.item (.here i) hi)

theorem HasUniqueNames.member {members : List (String × Json)}
    (h : (Json.object members).HasUniqueNames) : ∀ m ∈ members, m.2.HasUniqueNames :=
  fun m hm => h.within (.member (.here m.2) hm)

theorem hasUniqueNames_array {items : List Json} (h : ∀ i ∈ items, i.HasUniqueNames) :
    (Json.array items).HasUniqueNames := by
  intro members hmembers
  cases hmembers with
  | item hwithin hi => exact h _ hi members hwithin

theorem hasUniqueNames_object {members : List (String × Json)} (hnodup : (members.map Prod.fst).Nodup)
    (h : ∀ m ∈ members, m.2.HasUniqueNames) : (Json.object members).HasUniqueNames := by
  intro found hfound
  cases hfound with
  | here => exact hnodup
  | member hwithin hm => exact h _ hm found hwithin

/-- A value that is neither an array nor an object has no names. -/
theorem hasUniqueNames_leaf {v : Json} (harray : v.items? = none) (hobject : v.members? = none) :
    v.HasUniqueNames := by
  intro members hmembers
  cases hmembers with
  | here => simp [members?] at hobject
  | item => simp [items?] at harray
  | member => simp [members?] at hobject

/-! ## Reading -/

/-- Members in ascending order of names, whose values have no name twice. -/
structure IsWellKept (members : List (String × Json)) : Prop where
  ascending : (members.map Prod.fst).Pairwise (· < ·)
  values : ∀ m ∈ members, m.2.HasUniqueNames

theorem isWellKept_nil : IsWellKept [] := ⟨by simp, by simp⟩

theorem IsWellKept.object {members : List (String × Json)} (h : IsWellKept members) :
    (Json.object members).HasUniqueNames := by
  refine hasUniqueNames_object (h.ascending.imp ?_) h.values
  rintro a b hlt rfl
  exact String.lt_irrefl a hlt

theorem mem_setMember {name : String} {value : Json} {members : List (String × Json)}
    {m : String × Json} (h : m ∈ setMember name value members) : m = (name, value) ∨ m ∈ members := by
  induction members with
  | nil => simpa [setMember] using h
  | cons first rest ih =>
      obtain ⟨n, v⟩ := first
      rw [setMember] at h
      split at h
      · exact (List.mem_cons.mp h).imp_right fun h => List.mem_cons_of_mem _ h
      · split at h
        · exact List.mem_cons.mp h
        · rcases List.mem_cons.mp h with rfl | h
          · exact .inr List.mem_cons_self
          · exact (ih h).imp_right fun h => List.mem_cons_of_mem _ h

theorem IsWellKept.setMember {members : List (String × Json)} (h : IsWellKept members)
    (name : String) {value : Json} (hvalue : value.HasUniqueNames) :
    IsWellKept (setMember name value members) := by
  constructor
  · have hascending := h.ascending
    clear h
    induction members with
    | nil => simp [Json.setMember]
    | cons first rest ih =>
        obtain ⟨n, v⟩ := first
        rw [List.map_cons, List.pairwise_cons] at hascending
        obtain ⟨hfirst, hrest⟩ := hascending
        rw [Json.setMember]
        split
        · next heq => exact List.pairwise_cons.mpr ⟨heq ▸ hfirst, hrest⟩
        · next hne =>
            split
            · next hlt =>
                refine List.pairwise_cons.mpr ⟨?_, List.pairwise_cons.mpr ⟨hfirst, hrest⟩⟩
                simp only [List.map_cons, List.forall_mem_cons]
                exact ⟨hlt, fun other hother => String.lt_trans hlt (hfirst other hother)⟩
            · next hle =>
                refine List.pairwise_cons.mpr ⟨fun other hother => ?_, ih hrest⟩
                obtain ⟨m, hm, rfl⟩ := List.mem_map.mp hother
                rcases mem_setMember hm with rfl | hm
                · exact Std.lt_of_le_of_ne (String.not_lt.mp hle) (Ne.symm hne)
                · exact hfirst _ (List.mem_map_of_mem hm)
  · intro m hm
    rcases mem_setMember hm with rfl | hm
    · exact hvalue
    · exact h.values m hm

variable {readItem : Text → Option (Json × Text)}

theorem hasUniqueNames_readItems? (hitem : ∀ t v rest, readItem t = some (v, rest) → v.HasUniqueNames)
    {fuel : Nat} {t rest : Text} {items : List Json}
    (h : readItems? readItem fuel t = some (items, rest)) : ∀ i ∈ items, i.HasUniqueNames := by
  induction fuel generalizing t items with
  | zero => simp [readItems?] at h
  | succ fuel ih =>
      rw [readItems?, Option.bind_eq_bind, Option.bind_eq_some_iff] at h
      obtain ⟨⟨item, after⟩, hread, h⟩ := h
      have hfirst := hitem _ _ _ hread
      simp only at h
      split at h
      · obtain ⟨⟨more, last⟩, hmore, h⟩ := Option.bind_eq_some_iff.mp h
        cases h
        exact List.forall_mem_cons.mpr ⟨hfirst, ih hmore⟩
      · cases h
        exact List.forall_mem_cons.mpr ⟨hfirst, by simp⟩
      · simp at h

theorem isWellKept_readMembers?
    (hitem : ∀ t v rest, readItem t = some (v, rest) → v.HasUniqueNames) {fuel : Nat}
    {t rest : Text} {before members : List (String × Json)} (hbefore : IsWellKept before)
    (h : readMembers? readItem fuel before t = some (members, rest)) : IsWellKept members := by
  induction fuel generalizing t before with
  | zero => simp [readMembers?] at h
  | succ fuel ih =>
      rw [readMembers?, Option.bind_eq_bind, Option.bind_eq_some_iff] at h
      obtain ⟨⟨⟨name, value⟩, after⟩, hread, h⟩ := h
      have hvalue : value.HasUniqueNames := by
        unfold readMember? at hread
        split at hread
        · obtain ⟨_, -, hread⟩ := Option.bind_eq_some_iff.mp hread
          simp only at hread
          split at hread
          · obtain ⟨⟨found, left⟩, hfound, hread⟩ := Option.bind_eq_some_iff.mp hread
            cases hread
            exact hitem _ _ _ hfound
          · simp at hread
        · simp at hread
      have hset := hbefore.setMember name hvalue
      simp only at h
      split at h
      · exact ih hset h
      · cases h
        exact hset
      · simp at h

theorem hasUniqueNames_readValue? {fuel depth : Nat} {t rest : Text} {v : Json}
    (h : readValue? fuel depth t = some (v, rest)) : v.HasUniqueNames := by
  induction depth using Nat.strongRecOn generalizing t rest v with
  | ind depth ih =>
      unfold readValue? at h
      split at h
      · simp at h
      · obtain ⟨⟨s, after⟩, -, h⟩ := Option.bind_eq_some_iff.mp h
        cases h
        exact hasUniqueNames_leaf rfl rfl
      · split at h
        · simp at h
        · next inner =>
            split at h
            · cases h
              exact hasUniqueNames_array (by simp)
            · obtain ⟨⟨items, after⟩, hitems, h⟩ := Option.bind_eq_some_iff.mp h
              cases h
              exact hasUniqueNames_array (hasUniqueNames_readItems?
                (fun _ _ _ => ih inner (Nat.lt_succ_self _)) hitems)
      · split at h
        · simp at h
        · next inner =>
            split at h
            · cases h
              exact isWellKept_nil.object
            · obtain ⟨⟨members, after⟩, hmembers, h⟩ := Option.bind_eq_some_iff.mp h
              cases h
              exact (isWellKept_readMembers? (fun _ _ _ => ih inner (Nat.lt_succ_self _))
                isWellKept_nil hmembers).object
      · simp only at h
        split at h
        · cases h
          exact hasUniqueNames_leaf rfl rfl
        · split at h
          · cases h
            exact hasUniqueNames_leaf rfl rfl
          · split at h
            · cases h
              exact hasUniqueNames_leaf rfl rfl
            · obtain ⟨⟨n, after⟩, -, h⟩ := Option.bind_eq_some_iff.mp h
              cases h
              exact hasUniqueNames_leaf rfl rfl

/-- **What is read has no name twice**, for the last of two members of one name stays. -/
theorem hasUniqueNames_parse? {text : String} {v : Json} (h : parse? text = some v) :
    v.HasUniqueNames := by
  obtain ⟨⟨value, rest⟩, hread, h⟩ := Option.bind_eq_some_iff.mp h
  simp only at h
  split at h
  · cases h
    exact hasUniqueNames_readValue? hread
  · simp at h

end Json

end CanvasFlutter
