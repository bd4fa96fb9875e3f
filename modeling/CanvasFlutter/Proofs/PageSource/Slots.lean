import CanvasFlutter.Proofs.Canvas.Positions
import CanvasFlutter.Proofs.PageSource.State

namespace CanvasFlutter

/-!
# `CanvasFlutter.Proofs.PageSource.Slots` — who shares the slot of a made key

The values of a page's inputs are kept in two maps, and a node's slot is the entry that its seed
sets. An identifier is kept as it is given, so it can spell a position, and then the node has the
slot of the one that stands there; nothing else ever has.

## Contents
- **Slots.** `Seed.slot`, `Node.slot?`; `exists_seed_of_slot?`, `slot?_eq_slot?_iff`.
- **Sharing.** `slot?_eq_iff`, and inputs that share a slot (`not_made_keys_apart`).
-/

open Dart Widget

/-! ## Slots -/

/-- The entry that a seed sets: the map and the key. -/
def Seed.slot : Seed → String × String
  | .chosen key _ => (dropdownState, key)
  | .ticked key _ => (checkboxState, key)

theorem Seed.exists_code (seed : Seed) :
    ∃ value, seed.code = .assign (.entry seed.slot.1 seed.slot.2) value := by
  cases seed with
  | chosen key option => exact ⟨_, rfl⟩
  | ticked key checked => exact ⟨_, rfl⟩

namespace Node

/-- The entry that holds a node's value, if its kind carries state. -/
def slot? (node : Node) : Option (String × String) := (Seed.ofNode? node).map Seed.slot

/-- The slot of a node is set where the page begins. -/
theorem exists_seed_of_slot? {node : Node} {nodes : List Node} {slot : String × String}
    (hnode : node ∈ preorderAll nodes) (hslot : node.slot? = some slot) :
    ∃ seed ∈ seeds nodes, ∃ value, seed.code = .assign (.entry slot.1 slot.2) value := by
  obtain ⟨seed, hseed, rfl⟩ := Option.map_eq_some_iff.mp hslot
  exact ⟨seed, List.mem_filterMap.mpr ⟨node, hnode, hseed⟩, seed.exists_code⟩

theorem slot?_eq (node : Node) : node.slot? = (stateMap? node.kind).map (·, node.stateKey) := by
  rw [slot?, Seed.ofNode?]
  cases node.kind <;> rfl

theorem kind_eq_of_stateMap? {k l : Kind} {map : String} (hk : stateMap? k = some map)
    (hl : stateMap? l = some map) : k = l := by
  have hne : checkboxState ≠ dropdownState := by decide
  cases k <;> cases l <;> simp_all [stateMap?]

/-- A node has the slot of another one if it is of that kind and has its key. -/
theorem slot?_eq_slot?_iff {m n : Node} (hm : m.kind.carriesState = true) :
    m.slot? = n.slot? ↔ n.kind = m.kind ∧ n.stateKey = m.stateKey := by
  rw [← isSome_stateMap?] at hm
  obtain ⟨map, hmap⟩ := Option.isSome_iff_exists.mp hm
  rw [slot?_eq, slot?_eq, hmap, Option.map_some]
  constructor
  · intro h
    obtain ⟨found, hfound, hslot⟩ := Option.map_eq_some_iff.mp h.symm
    obtain ⟨rfl, hkey⟩ := Prod.mk.inj hslot
    exact ⟨kind_eq_of_stateMap? hfound hmap, hkey⟩
  · rintro ⟨hkind, hkey⟩
    rw [hkind, hkey, hmap, Option.map_some]

end Node

/-! ## Sharing -/

theorem Node.stateKey_eq_iff {node : Node} {key : String} (h : key ≠ "") :
    node.stateKey = key ↔ node.id = some key := by
  rw [Node.stateKey]
  cases node.id with
  | none => simpa using h.symm
  | some own => simp

/-- **Who shares a slot whose key is made.** A page holds the nodes that ways lead to. If one of them
carries state and has no identifier of its own, its key is made of its position, and another node
has its slot just if that is of the same kind and gives the text of that key as its identifier. -/
theorem slot?_eq_iff {canvas : String} {pages : List Page} (h : parsePages canvas = .ok pages) :
    ∃ v, Json.parse? canvas = some v ∧ ∀ i page, pages[i]? = some page →
      (∀ n, n ∈ Node.preorderAll page.components ↔ ∃ way, Node.at? v i way = some n)
      ∧ ∀ way other m n, Node.at? v i way = some m → Node.at? v i other = some n → way ≠ other →
        m.HasMadeId →
          ∃ key, Node.madeKey? m.kind (positionOf i way) = some key ∧ m.stateKey = key
            ∧ (m.slot? = n.slot?
              ↔ n.kind = m.kind ∧ Json.member? "id" n.attrs = some (.string key)) := by
  rw [parsePages] at h
  split at h
  · next v hv =>
      refine ⟨v, hv, fun i page hpage => ⟨fun n => mem_components_iff h hpage, ?_⟩⟩
      intro way other m n hm hn hne hmade
      obtain ⟨members, hfromM⟩ := Node.exists_isFrom hm
      obtain ⟨others, hfromN⟩ := Node.exists_isFrom hn
      have hkey := hfromM.id_of_hasMadeId hmade
      refine ⟨m.stateKey, hkey, rfl, ?_⟩
      have hstate : m.kind.carriesState = true := by
        rw [← Kind.isSome_keyStem?]
        obtain ⟨stem, hstem, -⟩ := Option.map_eq_some_iff.mp hkey
        rw [hstem]
        rfl
      have hplaces : positionOf i other ≠ positionOf i way := fun heq => hne (positionOf_inj heq).symm
      rw [Node.slot?_eq_slot?_iff hstate, Node.stateKey_eq_iff (Node.ne_of_madeKey? hkey).1,
        hfromN.id_eq_iff hplaces hkey]
  · simp at h

/-- A box without an identifier, and one whose identifier spells the position of the first. -/
def takenKey : String :=
  "[\x7b\"components\":[\x7b\"type\":\"Checkbox\"\x7d,"
    ++ "\x7b\"type\":\"Checkbox\",\"id\":\"checkbox_0_0\"\x7d]\x7d]"

/-- The value of `takenKey`. -/
def takenKeyValue : Json :=
  .array [.object [("components", .array [.object [("type", .string "Checkbox")],
    .object [("id", .string "checkbox_0_0"), ("type", .string "Checkbox")]])]]

/-- The nodes of `takenKey`. -/
def namelessBox : Node := ⟨.toggleBox, some "checkbox_0_0", [("type", .string "Checkbox")], []⟩

def namedBox : Node :=
  ⟨.toggleBox, some "checkbox_0_0", [("id", .string "checkbox_0_0"), ("type", .string "Checkbox")], []⟩

theorem parse?_takenKey : Json.parse? takenKey = some takenKeyValue := by rfl

theorem parsePages_takenKey :
    parsePages takenKey = .ok [⟨"page1", [namelessBox, namedBox]⟩] := by
  have hpages : pagesOfJson takenKeyValue = .ok [⟨"page1", [namelessBox, namedBox]⟩] := by rfl
  rw [parsePages, parse?_takenKey]
  exact hpages

theorem slot?_eq_iff_takenKey :
    Node.at? takenKeyValue 0 [0] = some namelessBox ∧ Node.at? takenKeyValue 0 [1] = some namedBox
      ∧ namelessBox.HasMadeId ∧ namelessBox.slot? = namedBox.slot?
      ∧ namelessBox.slot? = some (checkboxState, "checkbox_0_0") := by
  have hfirst : Node.at? takenKeyValue 0 [0] = some namelessBox := by rfl
  have hsecond : Node.at? takenKeyValue 0 [1] = some namedBox := by rfl
  have hmade : namelessBox.HasMadeId := by decide
  obtain ⟨v, hv, hpages⟩ := slot?_eq_iff parsePages_takenKey
  obtain rfl : takenKeyValue = v := Option.some.inj (parse?_takenKey.symm.trans hv)
  obtain ⟨key, hkey, -, hshared⟩ :=
    (hpages 0 _ rfl).2 [0] [1] namelessBox namedBox hfirst hsecond (by decide) hmade
  obtain rfl : "checkbox_0_0" = key := Option.some.inj hkey
  exact ⟨hfirst, hsecond, hmade, hshared.mpr ⟨rfl, rfl⟩, rfl⟩

/-- A key that is made can be another node's own. -/
theorem not_made_keys_apart :
    ¬ ∀ canvas pages, parsePages canvas = .ok pages → ∀ page ∈ pages,
      ∀ m ∈ Node.preorderAll page.components, ∀ n ∈ Node.preorderAll page.components,
        m.kind = .toggleBox → n.kind = .toggleBox → m.HasMadeId → n.ownId?.isSome = true →
          m.stateKey ≠ n.stateKey := by
  intro h
  have hmade : namelessBox.HasMadeId := by decide
  exact h takenKey _ parsePages_takenKey _ (List.mem_singleton_self _) namelessBox
    (List.mem_cons_self ..) namedBox (List.mem_cons_of_mem _ (List.mem_singleton_self _)) rfl rfl
    hmade rfl rfl

end CanvasFlutter
