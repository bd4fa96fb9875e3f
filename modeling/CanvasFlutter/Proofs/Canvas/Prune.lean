import CanvasFlutter.Proofs.Canvas.Names

namespace CanvasFlutter

/-!
# `CanvasFlutter.Proofs.Canvas.Prune` — null counts as missing

A canvas may write null where it means nothing. Pruning leaves out all members that are null, at
every depth; the nodes that are read from a pruned value are those of the value with pruned
attributes, and their attributes read alike.

## Contents
- **Values.** `Json.prune`, and `member?_pruneMembers`: what is found after pruning.
- **Attributes.** `Node.prune`; every accessor gives the same for a pruned node.
- **Nodes and pages.** `ofJson?_prune`, `pagesOfJson_prune`.
-/

/-! ## Values -/

namespace Json

mutual

/-- A value without the members that are null. The items of an array stay. -/
def prune : Json → Json
  | .array items => .array (pruneAll items)
  | .object members => .object (pruneMembers members)
  | v => v

/-- Values without the members that are null. -/
def pruneAll : List Json → List Json
  | [] => []
  | v :: rest => prune v :: pruneAll rest

/-- The members that are not null, pruned. -/
def pruneMembers : List (String × Json) → List (String × Json)
  | [] => []
  | (_, .null) :: rest => pruneMembers rest
  | (name, v) :: rest => (name, prune v) :: pruneMembers rest

end

theorem HasUniqueNames.tail {m : String × Json} {members : List (String × Json)}
    (h : (Json.object (m :: members)).HasUniqueNames) : (Json.object members).HasUniqueNames :=
  hasUniqueNames_object (List.nodup_cons.mp (h _ (.here _))).2
    fun n hn => h.member n (List.mem_cons_of_mem _ hn)

/-- What pruning leaves of a member's value. -/
def kept? : Json → Option Json
  | .null => none
  | v => some v.prune

theorem member?_pruneMembers_of_notMem {name : String} {members : List (String × Json)}
    (h : name ∉ members.map Prod.fst) : member? name (pruneMembers members) = none := by
  induction members with
  | nil => rfl
  | cons m rest ih =>
      obtain ⟨n, v⟩ := m
      simp only [List.map_cons, List.mem_cons, not_or] at h
      cases v <;> simp [pruneMembers, member?_cons, h.1, ih h.2]

/-- Looking up in pruned members is pruning what is looked up. -/
theorem member?_pruneMembers {members : List (String × Json)}
    (h : (members.map Prod.fst).Nodup) (name : String) :
    member? name (pruneMembers members) = (member? name members).bind kept? := by
  induction members with
  | nil => rfl
  | cons m rest ih =>
      obtain ⟨n, v⟩ := m
      rw [List.map_cons, List.nodup_cons] at h
      rw [member?_cons]
      split
      · next heq =>
          cases v with
          | null => exact (member?_pruneMembers_of_notMem (heq ▸ h.1) : member? name (pruneMembers rest) = none)
          | _ => simp [pruneMembers, member?_cons, kept?, heq]
      · next hne => cases v <;> simp [pruneMembers, member?_cons, hne, ih h.2]

theorem eraseMember_pruneMembers (name : String) (members : List (String × Json)) :
    eraseMember name (pruneMembers members) = pruneMembers (eraseMember name members) := by
  induction members with
  | nil => rfl
  | cons m rest ih =>
      obtain ⟨n, v⟩ := m
      by_cases hname : n = name
      · cases v <;> simpa [eraseMember, pruneMembers, hname] using ih
      · cases v <;> simpa [eraseMember, pruneMembers, hname] using ih

theorem text?_prune (v : Json) : v.prune.text? = v.text? := by
  cases v <;> rfl

end Json

/-! ## Attributes -/

namespace Node

mutual

/-- A node without the attributes that are null, as all below it. -/
def prune : Node → Node
  | ⟨kind, id, attrs, children⟩ => ⟨kind, id, Json.pruneMembers attrs, pruneAll children⟩

/-- Nodes without the attributes that are null. -/
def pruneAll : List Node → List Node
  | [] => []
  | node :: rest => prune node :: pruneAll rest

end

theorem pruneAll_eq_map (nodes : List Node) : pruneAll nodes = nodes.map prune := by
  induction nodes with
  | nil => rfl
  | cons node rest ih => simp [pruneAll, ih]

/-- No object in a node's attributes has two members of one name. -/
def HasUniqueNames (node : Node) : Prop := (Json.object node.attrs).HasUniqueNames

variable {node : Node}

theorem kind_prune (node : Node) : node.prune.kind = node.kind := by
  obtain ⟨kind, id, attrs, children⟩ := node
  rfl

theorem stateKey_prune (node : Node) : node.prune.stateKey = node.stateKey := by
  obtain ⟨kind, id, attrs, children⟩ := node
  rfl

mutual

theorem preorder_prune (node : Node) : preorder node.prune = (preorder node).map prune := by
  obtain ⟨kind, id, attrs, children⟩ := node
  rw [prune, preorder, preorder, preorderAll_pruneAll children, List.map_cons, prune]

theorem preorderAll_pruneAll (nodes : List Node) :
    preorderAll (pruneAll nodes) = (preorderAll nodes).map prune := by
  cases nodes with
  | nil => rfl
  | cons node rest =>
      rw [pruneAll, preorderAll, preorderAll, preorder_prune node, preorderAll_pruneAll rest,
        List.map_append]

end

theorem follow?_pruneMembers {members : List (String × Json)}
    (h : (Json.object members).HasUniqueNames) (parts : List String) :
    follow? parts (Json.pruneMembers members) = (follow? parts members).bind Json.kept? := by
  have hnodup : ∀ {ms : List (String × Json)}, (Json.object ms).HasUniqueNames →
      (ms.map Prod.fst).Nodup := fun h => h _ (.here _)
  induction parts generalizing members with
  | nil => rfl
  | cons part rest ih =>
      cases rest with
      | nil => exact Json.member?_pruneMembers (hnodup h) part
      | cons next rest =>
          rw [follow?, follow?, Json.member?_pruneMembers (hnodup h)]
          · cases hmember : Json.member? part members with
            | none => rfl
            | some v =>
                cases v with
                | object inner =>
                    obtain ⟨m, hm, hvalue⟩ := mem_of_member? hmember
                    exact ih (hvalue ▸ h.member m hm)
                | _ => rfl
          · simp
          · simp

/-- **An attribute is found after pruning exactly if it was there and not null.** -/
theorem attr?_prune (h : node.HasUniqueNames) (path : String) :
    node.prune.attr? path = (node.attr? path).map Json.prune := by
  have hattrs : node.prune.attrs = Json.pruneMembers node.attrs := by
    obtain ⟨kind, id, attrs, children⟩ := node
    rfl
  rw [attr?, attr?, hattrs, follow?_pruneMembers h]
  cases follow? (pathParts path) node.attrs with
  | none => rfl
  | some v => cases v <;> rfl

theorem hasAttr_prune (h : node.HasUniqueNames) (path : String) :
    node.prune.hasAttr path = node.hasAttr path := by
  rw [hasAttr, attr?_prune h, Option.isSome_map, hasAttr]

theorem text?_prune (h : node.HasUniqueNames) (path : String) :
    node.prune.text? path = node.text? path := by
  rw [text?, attr?_prune h, text?]
  cases node.attr? path with
  | none => rfl
  | some v => exact v.text?_prune

theorem number?_prune (h : node.HasUniqueNames) (path : String) :
    node.prune.number? path = node.number? path := by
  rw [number?, attr?_prune h, number?]
  cases node.attr? path with
  | none => rfl
  | some v => cases v <;> rfl

theorem flag?_prune (h : node.HasUniqueNames) (path : String) :
    node.prune.flag? path = node.flag? path := by
  rw [flag?, attr?_prune h, flag?]
  cases node.attr? path with
  | none => rfl
  | some v => cases v <;> rfl

theorem list_prune (h : node.HasUniqueNames) (path : String) :
    node.prune.list path = node.list path := by
  have hitems : ∀ items : List Json,
      (Json.pruneAll items).filterMap Json.text? = items.filterMap Json.text? := by
    intro items
    induction items with
    | nil => rfl
    | cons v rest ih =>
        rw [Json.pruneAll, List.filterMap_cons, List.filterMap_cons, Json.text?_prune, ih]
  rw [list, attr?_prune h, list]
  cases node.attr? path with
  | none => rfl
  | some v =>
      cases v with
      | array items => exact hitems items
      | _ => rfl

/-! ## Nodes and pages -/

theorem kindOf_pruneMembers {members : List (String × Json)}
    (h : (members.map Prod.fst).Nodup) : kindOf (Json.pruneMembers members) = kindOf members := by
  rw [kindOf, kindOf, Json.member?_pruneMembers h]
  cases Json.member? "type" members with
  | none => rfl
  | some v => cases v <;> rfl

theorem idOf_pruneMembers {members : List (String × Json)} (h : (members.map Prod.fst).Nodup)
    (position : String) : idOf (Json.pruneMembers members) position = idOf members position := by
  rw [idOf, idOf, Json.member?_pruneMembers h, kindOf_pruneMembers h]
  cases Json.member? "id" members with
  | none => rfl
  | some v => cases v <;> rfl

/-- The children of an object are the items of the member of that name. -/
theorem childrenOf_eq (members : List (String × Json)) (position : String) :
    childrenOf members position
      = ofItems (((Json.member? "children" members).bind Json.items?).getD []) position 0 := by
  induction members with
  | nil => rfl
  | cons m rest ih =>
      obtain ⟨name, v⟩ := m
      rw [Json.member?_cons]
      by_cases hname : name = "children"
      · cases v <;> simp [childrenOf, hname, Json.items?, ofItems]
      · cases v <;> simp [childrenOf, hname, Ne.symm hname, ih]

/-- The items of a member after pruning. -/
theorem items_pruneMembers {members : List (String × Json)} (h : (members.map Prod.fst).Nodup)
    (name : String) : (Json.member? name (Json.pruneMembers members)).bind Json.items?
      = ((Json.member? name members).bind Json.items?).map Json.pruneAll := by
  rw [Json.member?_pruneMembers h]
  cases Json.member? name members with
  | none => rfl
  | some v => cases v <;> rfl

mutual

/-- The node of a pruned value is the node of the value with pruned attributes. -/
theorem ofJson?_prune (v : Json) (h : v.HasUniqueNames) (position : String) :
    ofJson? v.prune position = (ofJson? v position).map prune := by
  cases v with
  | object members =>
      have hnodup := h members (.here _)
      simp only [Json.prune, ofJson?, Option.map_some, prune]
      rw [kindOf_pruneMembers hnodup, idOf_pruneMembers hnodup, Json.eraseMember_pruneMembers,
        childrenOf_pruneMembers members h position]
  | _ => rfl

theorem childrenOf_pruneMembers (members : List (String × Json))
    (h : (Json.object members).HasUniqueNames) (position : String) :
    childrenOf (Json.pruneMembers members) position = pruneAll (childrenOf members position) := by
  match members with
  | [] => rfl
  | (name, .array items) :: rest =>
      rw [Json.pruneMembers, Json.prune, childrenOf, childrenOf]
      · split
        · exact ofItems_pruneAll items (h.member _ List.mem_cons_self).item position 0
        · exact childrenOf_pruneMembers rest h.tail position
      · simp
  | (name, .null) :: rest =>
      rw [Json.pruneMembers, childrenOf]
      · split
        · next heq =>
            have hname : name ∉ rest.map Prod.fst := (List.nodup_cons.mp (h _ (.here _))).1
            have hnone := Json.member?_pruneMembers_of_notMem hname
            rw [childrenOf_eq, ← heq, hnone]
            rfl
        · exact childrenOf_pruneMembers rest h.tail position
      · simp
  | (name, .bool _) :: rest | (name, .number _) :: rest | (name, .string _) :: rest
  | (name, .object _) :: rest =>
      rw [Json.pruneMembers, Json.prune, childrenOf, childrenOf]
      · split
        · rfl
        · exact childrenOf_pruneMembers rest h.tail position
      all_goals simp

theorem ofItems_pruneAll (items : List Json) (h : ∀ i ∈ items, i.HasUniqueNames)
    (position : String) (index : Nat) :
    ofItems (Json.pruneAll items) position index = pruneAll (ofItems items position index) := by
  cases items with
  | nil => rfl
  | cons item rest =>
      rw [List.forall_mem_cons] at h
      rw [Json.pruneAll, ofItems, ofItems, ofJson?_prune item h.1]
      cases ofJson? item (childPosition position index) with
      | none => exact ofItems_pruneAll rest h.2 position (index + 1)
      | some node =>
          exact congrArg (prune node :: ·) (ofItems_pruneAll rest h.2 position (index + 1))

end

end Node

/-! ## Pages -/

/-- A page whose nodes are pruned. -/
def Page.prune (page : Page) : Page := ⟨page.name, Node.pruneAll page.components⟩

theorem Page.nameOf_pruneMembers {members : List (String × Json)}
    (h : (members.map Prod.fst).Nodup) (index : Nat) :
    nameOf (Json.pruneMembers members) index = nameOf members index := by
  rw [nameOf, nameOf, Json.member?_pruneMembers h]
  cases Json.member? "name" members with
  | none => rfl
  | some v => cases v <;> rfl

theorem Page.ofJson_prune {v : Json} (h : v.HasUniqueNames) (index : Nat) :
    ofJson index v.prune = (ofJson index v).map prune := by
  cases v with
  | object members =>
      have hnodup := h members (.here _)
      simp only [Json.prune, ofJson, Except.map, prune]
      rw [nameOf_pruneMembers hnodup, Node.items_pruneMembers hnodup]
      cases hitems : (Json.member? "components" members).bind Json.items? with
      | none => rfl
      | some items =>
          have hunique : ∀ i ∈ items, i.HasUniqueNames := fun i hi =>
            h.within (.of_items hitems hi (.here i))
          exact congrArg (fun nodes => Except.ok (Page.mk (nameOf members index) nodes))
            (Node.ofItems_pruneAll items hunique (toString index) 0)
  | _ => rfl

theorem pagesOfItems_pruneAll {items : List Json} (h : ∀ i ∈ items, i.HasUniqueNames)
    (index : Nat) :
    pagesOfItems index (Json.pruneAll items) = (pagesOfItems index items).map (·.map Page.prune) := by
  induction items generalizing index with
  | nil => rfl
  | cons item rest ih =>
      rw [List.forall_mem_cons] at h
      rw [Json.pruneAll, pagesOfItems, pagesOfItems, Page.ofJson_prune h.1, ih h.2]
      cases Page.ofJson index item with
      | error e => rfl
      | ok page => cases pagesOfItems (index + 1) rest <;> rfl

/-- **A pruned value describes the pruned pages**, or it is refused for the same reason. -/
theorem pagesOfJson_prune {v : Json} (h : v.HasUniqueNames) :
    pagesOfJson v.prune = (pagesOfJson v).map (·.map Page.prune) := by
  cases v with
  | array items => exact pagesOfItems_pruneAll h.item 0
  | object members =>
      rw [Json.prune, pagesOfJson, pagesOfJson, Node.items_pruneMembers (h members (.here _))]
      cases hitems : (Json.member? "pages" members).bind Json.items? with
      | none => rfl
      | some items =>
          exact pagesOfItems_pruneAll (fun i hi => h.within (.of_items hitems hi (.here i))) 0
  | _ => rfl

/-- The nodes of a canvas have no name twice. -/
theorem hasUniqueNames_of_pagesOfJson {v : Json} (h : v.HasUniqueNames) {pages : List Page}
    (hpages : pagesOfJson v = .ok pages) {page : Page} (hpage : page ∈ pages) :
    ∀ n ∈ Node.preorderAll page.components, n.HasUniqueNames := by
  intro n hn
  obtain ⟨found, hfound, members, position, hwithin, hfrom⟩ :=
    isWithin_of_mem_pagesOfJson hpages hpage n hn
  obtain rfl := List.mem_singleton.mp hfound
  have hmembers := h.within hwithin
  have hsublist : (Json.eraseMember "children" members).Sublist members := List.filter_sublist
  rw [Node.HasUniqueNames, hfrom.attrs]
  exact Json.hasUniqueNames_object ((hmembers _ (.here _)).sublist (hsublist.map _))
    fun m hm => hmembers.member m (hsublist.subset hm)

end CanvasFlutter
