import CanvasFlutter.Proofs.Canvas.Keys
import CanvasFlutter.Proofs.Canvas.Prune
import CanvasFlutter.Proofs.Dart.Leaf

namespace CanvasFlutter

/-!
# `CanvasFlutter.Proofs.Canvas.Positions` — a made key spells the way to its node

The way to a node is a row of indices: one of a component, then one of a child at each step down.
Here it is followed through the canvas text's value and not through the nodes, since items that are
no objects count. Each node of a page is found by some way, and the ways are told apart by the
positions they spell.

## Contents
- **Ways.** `Json.descend?`, `Json.component?`; `positionOf` spells a way (`positionOf_inj`).
- **Nodes.** `Node.at?`; a page holds just the nodes that ways lead to (`mem_components_iff`).
- **Identifiers.** `Node.madeKey?`; what else has a key that is made of a position
  (`Node.IsFrom.id_eq_iff`).
-/

/-! ## Ways -/

namespace Json

/-- The items of the array under a name of an object; none where there is no such array. -/
def itemsUnder (name : String) (v : Json) : List Json :=
  ((v.members?.bind (member? name)).bind items?).getD []

/-- The values that a canvas lists as its pages. -/
def pageItems : Json → List Json
  | .array items => items
  | v => v.itemsUnder "pages"

/-- The value that a way leads to, from child to child. -/
def descend? : List Nat → Json → Option Json
  | [], v => some v
  | index :: way, v => ((v.itemsUnder "children")[index]?).bind (descend? way)

/-- The value that a way leads to on a page of a canvas: a component, and then from child to
child. -/
def component? (canvas : Json) (page : Nat) : List Nat → Option Json
  | [] => none
  | index :: way => do
      let page ← canvas.pageItems[page]?
      let component ← (page.itemsUnder "components")[index]?
      component.descend? way

theorem sizeOf_lt_of_mem_itemsUnder {name : String} {item v : Json} (h : item ∈ v.itemsUnder name) :
    sizeOf item < sizeOf v := by
  cases v with
  | object members =>
      rw [itemsUnder, members?, Option.bind_some] at h
      cases hmember : member? name members with
      | none => simp [hmember] at h
      | some value =>
          cases value with
          | array items =>
              have hitem : sizeOf item < sizeOf items :=
                List.sizeOf_lt_of_mem (by simpa [hmember, items?] using h)
              obtain ⟨m, hm, heq⟩ : ∃ m ∈ members, m.2 = .array items :=
                mem_of_member? hmember
              have hmembers := List.sizeOf_lt_of_mem hm
              obtain ⟨n, value⟩ := m
              subst heq
              simp only [Prod.mk.sizeOf_spec, Json.array.sizeOf_spec] at hmembers
              simp only [Json.object.sizeOf_spec]
              omega
          | _ => simp [hmember, items?] at h
  | _ => simp [itemsUnder, members?] at h

end Json

/-- The position of what a way leads to on a page, such as `0_3_1`. -/
def positionOf (page : Nat) (way : List Nat) : String :=
  way.foldl Node.childPosition (toString page)

/-- What the steps of a way add to a position. -/
def steps (way : List Nat) : Text := way.flatMap fun index => '_' :: (toString index).toList

theorem toList_foldl_childPosition (way : List Nat) (position : String) :
    (way.foldl Node.childPosition position).toList = position.toList ++ steps way := by
  induction way generalizing position with
  | nil => simp [steps]
  | cons index way ih =>
      rw [List.foldl_cons, ih]
      simp [steps, Node.childPosition]

/-- After an index stands nothing or an underscore, so it is read off as far as its digits go. -/
theorem reaches_steps (index : Nat) (way : List Nat) :
    Reaches (toString index).toList ((toString index).toList ++ steps way) := by
  cases way with
  | nil => exact .inl (List.append_nil _)
  | cons next way => exact .inr ⟨_, rfl⟩

theorem steps_inj {way other : List Nat} (h : steps way = steps other) : way = other := by
  induction way generalizing other with
  | nil =>
      cases other with
      | nil => rfl
      | cons index other => simp [steps] at h
  | cons index way ih =>
      cases other with
      | nil => simp [steps] at h
      | cons first other =>
          have happend : (toString index).toList ++ steps way
              = (toString first).toList ++ steps other := (List.cons.inj h).2
          obtain rfl : index = first :=
            index_eq_of_reaches (reaches_steps index way) (happend ▸ reaches_steps first other)
          rw [ih (List.append_cancel_left happend)]

/-- **Different ways have different positions.** -/
theorem positionOf_inj {page : Nat} {way other : List Nat}
    (h : positionOf page way = positionOf page other) : way = other := by
  have htexts := congrArg String.toList h
  rw [positionOf, positionOf, toList_foldl_childPosition, toList_foldl_childPosition] at htexts
  exact steps_inj (List.append_cancel_left htexts)

/-! ## Nodes -/

namespace Node

/-- The node that a way leads to on a page of a canvas. -/
def at? (canvas : Json) (page : Nat) (way : List Nat) : Option Node :=
  (canvas.component? page way).bind (ofJson? · (positionOf page way))

/-- The nodes of a forest are those of its items, each counted from the index of the first. -/
theorem mem_preorderAll_ofItems {n : Node} {position : String} (items : List Json) (index : Nat) :
    n ∈ preorderAll (ofItems items position index)
      ↔ ∃ i item, items[i]? = some item
        ∧ ∃ node ∈ ofJson? item (childPosition position (index + i)), n ∈ node.preorder := by
  induction items generalizing index with
  | nil => simp [ofItems, preorderAll]
  | cons item rest ih =>
      have hrest := ih (index + 1)
      have hsplit : n ∈ preorderAll (ofItems (item :: rest) position index)
          ↔ (∃ node ∈ ofJson? item (childPosition position index), n ∈ node.preorder)
            ∨ n ∈ preorderAll (ofItems rest position (index + 1)) := by
        rw [ofItems]
        cases ofJson? item (childPosition position index) with
        | none => simp
        | some node => simp [preorderAll]
      rw [hsplit, hrest]
      constructor
      · rintro (hfirst | ⟨i, found, hfound, hmem⟩)
        · exact ⟨0, item, rfl, hfirst⟩
        · refine ⟨i + 1, found, hfound, ?_⟩
          rwa [Nat.add_right_comm, Nat.add_assoc] at hmem
      · rintro ⟨i, found, hfound, hmem⟩
        cases i with
        | zero =>
            obtain rfl : item = found := Option.some.inj hfound
            exact .inl hmem
        | succ i =>
            refine .inr ⟨i, found, hfound, ?_⟩
            rwa [Nat.add_right_comm, Nat.add_assoc]

/-- A value's node and all below it are what ways lead to. -/
theorem exists_mem_preorder_iff {n : Node} (v : Json) (position : String) :
    (∃ node ∈ ofJson? v position, n ∈ node.preorder)
      ↔ ∃ way, (v.descend? way).bind (ofJson? · (way.foldl childPosition position)) = some n := by
  have hchild : ∀ index, (∃ item, (v.itemsUnder "children")[index]? = some item
        ∧ ∃ node ∈ ofJson? item (childPosition position index), n ∈ node.preorder)
      ↔ ∃ way, (v.descend? (index :: way)).bind
          (ofJson? · (way.foldl childPosition (childPosition position index))) = some n := by
    intro index
    simp only [Json.descend?]
    cases hitem : (v.itemsUnder "children")[index]? with
    | none => simp
    | some item =>
        have hsize := Json.sizeOf_lt_of_mem_itemsUnder (List.mem_of_getElem? hitem)
        simpa using exists_mem_preorder_iff item (childPosition position index)
  -- the empty way leads to the value itself, any other one through a child
  have hways : ∀ p : List Nat → Prop, (∃ way, p way) ↔ p [] ∨ ∃ index way, p (index :: way) := by
    intro p
    constructor
    · rintro ⟨_ | ⟨index, way⟩, h⟩
      · exact .inl h
      · exact .inr ⟨index, way, h⟩
    · rintro (h | ⟨index, way, h⟩)
      · exact ⟨[], h⟩
      · exact ⟨index :: way, h⟩
  rw [hways]
  simp only [List.foldl_cons, ← hchild]
  cases v with
  | object members =>
      have hitems : childrenOf members position
          = ofItems ((Json.object members).itemsUnder "children") position 0 :=
        childrenOf_eq members position
      simp [Json.descend?, ofJson?, preorder, hitems, mem_preorderAll_ofItems, eq_comm]
  | _ => simp [Json.descend?, ofJson?, Json.itemsUnder, Json.members?]
termination_by sizeOf v

end Node

/-- Each page is described by the item of its index. -/
theorem exists_item_of_pagesOfItems {items : List Json} {index i : Nat} {pages : List Page}
    {page : Page} (h : pagesOfItems index items = .ok pages) (hpage : pages[i]? = some page) :
    ∃ item, items[i]? = some item ∧ Page.ofJson (index + i) item = .ok page := by
  induction items generalizing index i pages with
  | nil =>
      obtain rfl := Except.ok.inj h
      simp at hpage
  | cons item rest ih =>
      rw [pagesOfItems] at h
      cases hfirst : Page.ofJson index item with
      | error e => simp [hfirst, bind, Except.bind] at h
      | ok first =>
          cases hrest : pagesOfItems (index + 1) rest with
          | error e => simp [hfirst, hrest, bind, Except.bind] at h
          | ok more =>
              obtain rfl : first :: more = pages := by
                simpa [hfirst, hrest, bind, Except.bind, pure, Except.pure] using h
              cases i with
              | zero =>
                  obtain rfl : first = page := Option.some.inj hpage
                  exact ⟨item, rfl, hfirst⟩
              | succ i =>
                  obtain ⟨found, hfound, hpage⟩ := ih hrest hpage
                  refine ⟨found, hfound, ?_⟩
                  rwa [Nat.add_right_comm, Nat.add_assoc] at hpage

theorem pagesOfItems_of_pagesOfJson {v : Json} {pages : List Page}
    (h : pagesOfJson v = .ok pages) : pagesOfItems 0 v.pageItems = .ok pages := by
  cases v with
  | array items => exact h
  | object members =>
      rw [pagesOfJson] at h
      split at h
      · next items hitems =>
          have hunder : (Json.object members).pageItems = items := by
            simp [Json.pageItems, Json.itemsUnder, Json.members?, hitems]
          rwa [hunder]
      · simp at h
  | _ => simp [pagesOfJson] at h

/-- **A page holds the nodes that ways lead to, and no others.** -/
theorem mem_components_iff {v : Json} {pages : List Page} {i : Nat} {page : Page} {n : Node}
    (h : pagesOfJson v = .ok pages) (hpage : pages[i]? = some page) :
    n ∈ Node.preorderAll page.components ↔ ∃ way, Node.at? v i way = some n := by
  obtain ⟨item, hitem, hofJson⟩ :=
    exists_item_of_pagesOfItems (pagesOfItems_of_pagesOfJson h) hpage
  rw [Nat.zero_add] at hofJson
  have hcomponents : page.components
      = Node.ofItems (item.itemsUnder "components") (toString i) 0 := by
    cases item with
    | object members =>
        obtain rfl := Except.ok.inj hofJson
        rfl
    | _ => simp [Page.ofJson] at hofJson
  have hways : ∀ index way, Node.at? v i (index :: way)
      = ((item.itemsUnder "components")[index]?.bind (Json.descend? way)).bind
          (Node.ofJson? · (way.foldl Node.childPosition (Node.childPosition (toString i) index))) := by
    intro index way
    simp [Node.at?, Json.component?, hitem, positionOf]
  rw [hcomponents, Node.mem_preorderAll_ofItems]
  simp only [Nat.zero_add]
  constructor
  · rintro ⟨index, component, hcomponent, hmem⟩
    obtain ⟨way, hway⟩ := (Node.exists_mem_preorder_iff component _).mp hmem
    refine ⟨index :: way, ?_⟩
    rw [hways, hcomponent]
    exact hway
  · rintro ⟨_ | ⟨index, way⟩, hway⟩
    · simp [Node.at?, Json.component?] at hway
    · rw [hways] at hway
      cases hcomponent : (item.itemsUnder "components")[index]? with
      | none => simp [hcomponent] at hway
      | some component =>
          refine ⟨index, component, hcomponent, (Node.exists_mem_preorder_iff component _).mpr ?_⟩
          exact ⟨way, by simpa [hcomponent] using hway⟩

/-! ## Identifiers -/

/-- What the text of a number begins with; the letters are those of what is no number, and of
infinity. -/
def beginsNumber (c : Char) : Bool := c.isDigit || c ∈ ['-', 'N', 'i']

theorem exists_beginsNumber (n : JsonNumber) :
    ∃ c rest, n.text.toList = c :: rest ∧ beginsNumber c = true := by
  have hnumeral : ∀ t, Dart.Lexer.IsNumeral t → ∃ c rest, t = c :: rest ∧ beginsNumber c = true := by
    intro t ht
    obtain ⟨c, rest, rfl, hc⟩ := ht.exists_digit
    exact ⟨c, rest, rfl, Bool.or_eq_true_iff.mpr (.inl hc)⟩
  cases n with
  | int n =>
      rw [JsonNumber.text, String.toList_ofList, Decimal.writeInt]
      split
      · exact ⟨'-', _, rfl, by decide⟩
      · exact hnumeral _ (Decimal.isDigits_digitsOf _).isNumeral
  | real x =>
      rw [JsonNumber.text, String.toList_ofList, Decimal.Style.write]
      split
      · split
        · next d hd =>
            split
            · exact ⟨'-', _, rfl, by decide⟩
            · exact hnumeral _ (Decimal.isNumeral_magnitude _ (Decimal.isDigits_of_shortest? hd))
        · split <;> exact ⟨_, _, rfl, by decide⟩
      · split
        · exact ⟨'N', _, rfl, by decide⟩
        · split <;> exact ⟨_, _, rfl, by decide⟩

namespace Node

/-- The key that is made of a position for a node of some kind. -/
def madeKey? (kind : Kind) (position : String) : Option String :=
  kind.keyStem?.map (· ++ position)

theorem madeKey?_inj {kind other : Kind} {position place key : String}
    (h : madeKey? kind position = some key) (hother : madeKey? other place = some key) :
    position = place := by
  obtain ⟨stem, hstem, rfl⟩ := Option.map_eq_some_iff.mp h
  obtain ⟨stem', hstem', heq⟩ := Option.map_eq_some_iff.mp hother
  have hlength : ∀ s ∈ keyStems, s.toList.length = 9 := by decide
  have htexts := congrArg String.toList heq
  rw [String.toList_append, String.toList_append] at htexts
  have hlengths : stem'.toList.length = stem.toList.length := by
    rw [hlength _ (keyStem?_mem hstem), hlength _ (keyStem?_mem hstem')]
  exact (String.toList_inj.mp (List.append_inj htexts hlengths).2).symm

/-- A made key is not empty and is the text of no number. -/
theorem ne_of_madeKey? {kind : Kind} {position key : String}
    (h : madeKey? kind position = some key) : key ≠ "" ∧ ∀ n : JsonNumber, n.text ≠ key := by
  obtain ⟨stem, hstem, rfl⟩ := Option.map_eq_some_iff.mp h
  have hstems : ∀ s ∈ keyStems, ∃ c rest, s.toList = c :: rest ∧ beginsNumber c = false := by
    simp only [keyStems, List.forall_mem_cons]
    exact ⟨⟨'c', _, rfl, by decide⟩, ⟨'d', _, rfl, by decide⟩, by simp⟩
  obtain ⟨c, rest, hstem, hc⟩ := hstems stem (keyStem?_mem hstem)
  refine ⟨fun hempty => ?_, fun n heq => ?_⟩
  · have htext := congrArg String.toList hempty
    simp [hstem] at htext
  · obtain ⟨d, more, hn, hd⟩ := exists_beginsNumber n
    have htext := congrArg String.toList heq
    rw [hn, String.toList_append, hstem] at htext
    obtain rfl : d = c := (List.cons.inj htext).1
    rw [hc] at hd
    simp at hd

/-- A node has its own identifier, or else one made of its position if its kind needs one. -/
theorem IsFrom.id_eq {node : Node} {members : List (String × Json)} {position : String}
    (h : node.IsFrom members position) :
    node.id = node.ownId?.or (madeKey? node.kind position) := by
  have hmember : Json.member? "id" node.attrs = Json.member? "id" members := by
    rw [h.attrs]
    exact Json.member?_eraseMember (by decide) members
  rw [h.id, idOf, ownId?, hmember, h.kind, madeKey?]
  cases Json.member? "id" members with
  | none => rfl
  | some v =>
      cases v with
      | string s =>
          simp only
          split <;> rfl
      | _ => rfl

theorem exists_isFrom {canvas : Json} {page : Nat} {way : List Nat} {node : Node}
    (h : at? canvas page way = some node) :
    ∃ members, node.IsFrom members (positionOf page way) := by
  obtain ⟨v, -, hnode⟩ := Option.bind_eq_some_iff.mp h
  cases v with
  | object members =>
      obtain rfl := Option.some.inj hnode
      exact ⟨members, rfl, rfl, rfl⟩
  | _ => simp [ofJson?] at hnode

/-- A made key is the own identifier of a node that gives just that text. -/
theorem ownId?_eq_madeKey_iff {node : Node} {kind : Kind} {position key : String}
    (h : madeKey? kind position = some key) :
    node.ownId? = some key ↔ Json.member? "id" node.attrs = some (.string key) := by
  obtain ⟨hempty, hnumber⟩ := ne_of_madeKey? h
  rw [ownId?]
  constructor
  · intro hown
    split at hown
    · next s hs =>
        split at hown
        · simp at hown
        · rw [hs, Option.some.inj hown]
    · next n hn => exact absurd (Option.some.inj hown) (hnumber n)
    · simp at hown
  · intro hid
    rw [hid]
    simpa using hempty

/-- **What else has a key that is made of a position.** A node elsewhere has it just if it gives
that text as its own identifier. -/
theorem IsFrom.id_eq_iff {node : Node} {members : List (String × Json)} {position place : String}
    (h : node.IsFrom members position) (hne : position ≠ place) {kind : Kind} {key : String}
    (hkey : madeKey? kind place = some key) :
    node.id = some key ↔ Json.member? "id" node.attrs = some (.string key) := by
  rw [← ownId?_eq_madeKey_iff hkey, h.id_eq]
  constructor
  · intro hid
    cases hown : node.ownId? with
    | some own => simpa [hown] using hid
    | none =>
        rw [hown, Option.none_or] at hid
        exact absurd (madeKey?_inj hid hkey) hne
  · intro hown
    rw [hown, Option.some_or]

/-- The key of a node without an identifier of its own is made of its position. -/
theorem IsFrom.id_of_hasMadeId {node : Node} {members : List (String × Json)} {position : String}
    (h : node.IsFrom members position) (hmade : node.HasMadeId) :
    madeKey? node.kind position = some node.stateKey := by
  obtain ⟨hown, hsome⟩ := hmade
  obtain ⟨key, hkey⟩ := Option.isSome_iff_exists.mp hsome
  rw [stateKey, hkey, Option.getD_some, ← hkey, h.id_eq, hown, Option.none_or]

end Node

end CanvasFlutter
