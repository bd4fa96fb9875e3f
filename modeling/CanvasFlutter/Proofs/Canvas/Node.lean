import CanvasFlutter.Canvas.Page

namespace CanvasFlutter

/-!
# `CanvasFlutter.Proofs.Canvas.Node` — the nodes of a canvas come from its objects

Every node of a page, at any depth, is made of the members of one object within the canvas text's
value, so whatever holds of all that a value holds within is known of the attributes of all nodes.

## Contents
- **Values.** `Json.Within`.
- **Nodes.** `Node.IsFrom`, `Node.IsWithin`; `isWithin_ofJson?` and the like for children and items.
- **Identifiers.** A node that carries state has one (`Node.IsFrom.isSome_id`).
- **Pages.** `exists_value_of_parsePages`.
-/

/-! ## Values -/

/-- A value that is another one or stands in it at some depth. -/
inductive Json.Within : Json → Json → Prop where
  | here (v : Json) : Within v v
  | item {v i : Json} {items : List Json} (h : Within v i) (hi : i ∈ items) :
      Within v (.array items)
  | member {v : Json} {m : String × Json} {members : List (String × Json)} (h : Within v m.2)
      (hm : m ∈ members) : Within v (.object members)

/-! ## Nodes -/

/-- A node that the members of an object describe at some position. -/
structure Node.IsFrom (node : Node) (members : List (String × Json)) (position : String) :
    Prop where
  kind : node.kind = Node.kindOf members
  id : node.id = Node.idOf members position
  attrs : node.attrs = Json.eraseMember "children" members

/-- A node that an object within one of these values describes. -/
def Node.IsWithin (node : Node) (values : List Json) : Prop :=
  ∃ v ∈ values, ∃ members position, Json.Within (.object members) v ∧ node.IsFrom members position

namespace Node

theorem IsWithin.mono {node : Node} {values more : List Json} (h : node.IsWithin values)
    (hmore : ∀ v ∈ values, v ∈ more) : node.IsWithin more := by
  obtain ⟨v, hv, hrest⟩ := h
  exact ⟨v, hmore v hv, hrest⟩

mutual

theorem isWithin_ofJson? (v : Json) (position : String) :
    ∀ node ∈ ofJson? v position, ∀ n ∈ node.preorder, n.IsWithin [v] := by
  intro node hnode n hn
  cases v with
  | object members =>
      obtain rfl := Option.some.inj hnode
      rcases List.mem_cons.mp hn with rfl | hn
      · exact ⟨_, List.mem_singleton_self _, members, position, .here _, rfl, rfl, rfl⟩
      · obtain ⟨v, hv, ms, p, hwithin, hfrom⟩ := isWithin_childrenOf members position n hn
        obtain ⟨m, hm, rfl⟩ := List.mem_map.mp hv
        exact ⟨_, List.mem_singleton_self _, ms, p, .member hwithin hm, hfrom⟩
  | _ => simp [ofJson?] at hnode

theorem isWithin_childrenOf (members : List (String × Json)) (position : String) :
    ∀ n ∈ preorderAll (childrenOf members position), n.IsWithin (members.map Prod.snd) := by
  intro n hn
  match members with
  | [] => simp [childrenOf, preorderAll] at hn
  | (name, .array items) :: rest =>
      rw [childrenOf] at hn
      split at hn
      · obtain ⟨v, hv, ms, p, hwithin, hfrom⟩ := isWithin_ofItems items position 0 n hn
        exact ⟨_, List.mem_cons_self, ms, p, .item hwithin hv, hfrom⟩
      · exact (isWithin_childrenOf rest position n hn).mono (by simp_all)
  | (name, .null) :: rest | (name, .bool _) :: rest | (name, .number _) :: rest
  | (name, .string _) :: rest | (name, .object _) :: rest =>
      rw [childrenOf] at hn
      · split at hn
        · simp [preorderAll] at hn
        · exact (isWithin_childrenOf rest position n hn).mono (by simp_all)
      · simp

theorem isWithin_ofItems (items : List Json) (position : String) (index : Nat) :
    ∀ n ∈ preorderAll (ofItems items position index), n.IsWithin items := by
  intro n hn
  cases items with
  | nil => simp [ofItems, preorderAll] at hn
  | cons item rest =>
      rw [ofItems] at hn
      split at hn
      · next node hnode =>
          rcases List.mem_append.mp hn with hn | hn
          · exact (isWithin_ofJson? item _ node hnode n hn).mono (by simp)
          · exact (isWithin_ofItems rest position _ n hn).mono (by simp_all)
      · exact (isWithin_ofItems rest position _ n hn).mono (by simp_all)

end

/-! ## Identifiers -/

/-- A node that carries state has an identifier. -/
theorem IsFrom.isSome_id {node : Node} {members : List (String × Json)} {position : String}
    (h : node.IsFrom members position) (hstate : node.kind.carriesState = true) :
    node.id.isSome = true := by
  rw [h.kind, ← Kind.isSome_keyStem?] at hstate
  rw [h.id, idOf]
  split
  · split <;> simp_all
  · simp
  · simp_all

end Node

/-! ## Pages -/

theorem mem_of_member? {name : String} {members : List (String × Json)} {v : Json}
    (h : Json.member? name members = some v) : ∃ m ∈ members, m.2 = v := by
  induction members with
  | nil => simp at h
  | cons m rest ih =>
      rw [Json.member?_cons] at h
      split at h
      · exact ⟨m, List.mem_cons_self, Option.some.inj h⟩
      · obtain ⟨n, hn, rfl⟩ := ih h
        exact ⟨n, List.mem_cons_of_mem _ hn, rfl⟩

/-- What stands in an item of a member stands in the object. -/
theorem Json.Within.of_items {name : String} {members : List (String × Json)} {items : List Json}
    (hitems : (Json.member? name members).bind Json.items? = some items) {u v : Json} (hv : v ∈ items)
    (h : Within u v) : Within u (.object members) := by
  obtain ⟨value, hvalue, hitems⟩ := Option.bind_eq_some_iff.mp hitems
  obtain ⟨m, hm, rfl⟩ := mem_of_member? hvalue
  refine .member ?_ hm
  cases heq : m.2 with
  | array found =>
      obtain rfl : found = items := by simpa [heq, Json.items?] using hitems
      exact .item h hv
  | _ => simp [heq, Json.items?] at hitems

theorem isWithin_page {index : Nat} {v : Json} {page : Page} (h : Page.ofJson index v = .ok page) :
    ∀ n ∈ Node.preorderAll page.components, n.IsWithin [v] := by
  intro n hn
  cases v with
  | object members =>
      obtain rfl := Except.ok.inj h
      obtain ⟨item, hitem, ms, p, hwithin, hfrom⟩ := Node.isWithin_ofItems _ _ _ n hn
      cases hitems : (Json.member? "components" members).bind Json.items? with
      | none => simp [hitems] at hitem
      | some items =>
          rw [hitems] at hitem
          exact ⟨_, List.mem_singleton_self _, ms, p, .of_items hitems hitem hwithin, hfrom⟩
  | _ => simp [Page.ofJson] at h

theorem isWithin_of_mem_pagesOfItems {index : Nat} {items : List Json} {pages : List Page}
    (h : pagesOfItems index items = .ok pages) {page : Page} (hpage : page ∈ pages) :
    ∀ n ∈ Node.preorderAll page.components, n.IsWithin items := by
  induction items generalizing index pages with
  | nil =>
      obtain rfl := Except.ok.inj h
      simp at hpage
  | cons item rest ih =>
      rw [pagesOfItems] at h
      cases hfirst : Page.ofJson index item with
      | error e => simp [hfirst, bind, Except.bind] at h
      | ok first =>
          cases hrest : pagesOfItems (index + 1) rest with
          | error e => simp [hfirst, hrest, bind, Except.bind] at h
          | ok more =>
              obtain rfl : first :: more = pages := by
                simpa [hfirst, hrest, bind, Except.bind, pure, Except.pure] using h
              intro n hn
              rcases List.mem_cons.mp hpage with rfl | hpage
              · exact (isWithin_page hfirst n hn).mono (by simp)
              · exact (ih hrest hpage n hn).mono (by simp_all)

theorem isWithin_of_mem_pagesOfJson {v : Json} {pages : List Page} (h : pagesOfJson v = .ok pages)
    {page : Page} (hpage : page ∈ pages) :
    ∀ n ∈ Node.preorderAll page.components, n.IsWithin [v] := by
  intro n hn
  cases v with
  | array items =>
      obtain ⟨v, hv, ms, p, hwithin, hfrom⟩ := isWithin_of_mem_pagesOfItems h hpage n hn
      exact ⟨_, List.mem_singleton_self _, ms, p, .item hwithin hv, hfrom⟩
  | object members =>
      rw [pagesOfJson] at h
      split at h
      · next items hitems =>
          obtain ⟨v, hv, ms, p, hwithin, hfrom⟩ := isWithin_of_mem_pagesOfItems h hpage n hn
          exact ⟨_, List.mem_singleton_self _, ms, p, .of_items hitems hv hwithin, hfrom⟩
      · simp at h
  | _ => simp [pagesOfJson] at h

/-- **Every node of a canvas comes from an object within its value.** -/
theorem exists_value_of_parsePages {canvas : String} {pages : List Page}
    (h : parsePages canvas = .ok pages) :
    ∃ value, Json.parse? canvas = some value ∧ ∀ page ∈ pages,
      ∀ n ∈ Node.preorderAll page.components, n.IsWithin [value] := by
  rw [parsePages] at h
  split at h
  · next value hvalue => exact ⟨value, hvalue, fun _ => isWithin_of_mem_pagesOfJson h⟩
  · simp at h

/-- Every node of a canvas that carries state has an identifier. -/
theorem isSome_id_of_parsePages {canvas : String} {pages : List Page}
    (h : parsePages canvas = .ok pages) {page : Page} (hpage : page ∈ pages) {node : Node}
    (hnode : node ∈ Node.preorderAll page.components) (hstate : node.kind.carriesState = true) :
    node.id.isSome = true := by
  obtain ⟨value, -, hwithin⟩ := exists_value_of_parsePages h
  obtain ⟨-, -, members, position, -, hfrom⟩ := hwithin page hpage node hnode
  exact hfrom.isSome_id hstate

end CanvasFlutter
