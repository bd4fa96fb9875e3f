import CanvasFlutter.Proofs.Canvas.Node
import CanvasFlutter.Proofs.Canvas.Without
import CanvasFlutter.Proofs.Route.Distinct

namespace CanvasFlutter

/-!
# `CanvasFlutter.Proofs.Canvas.Keys` — the keys that are made of positions are all different

A node that carries state and has no identifier of its own gets a key made of the indices on the way
to it. An item that is no object is left out but counted, so each node keeps an index of its own, and
decimal indices with underscores between them are told apart digit by digit.

## Contents
- **Identifiers.** `Node.ownId?`, `Node.HasMadeId`, and what the key of a node is (`IsFrom.made`).
- **Positions.** `Reaches` says which positions lie below another one; two indices never meet
  (`index_eq_of_reaches`).
- **Forests.** `Keyed` forests have made keys within a range, each once; one lemma for each of the
  three functions that read nodes, then for pages.
- **Canvases.** `id_ne_of_hasMadeId`.
-/

namespace Node

/-! ## Identifiers -/

/-- The identifier that a node itself gives: a text that is not empty, or a number. -/
def ownId? (node : Node) : Option String :=
  match Json.member? "id" node.attrs with
  | some (.string s) => if s.isEmpty then none else some s
  | some (.number n) => some n.text
  | _ => none

/-- Whether a node has an identifier though it gives none itself. -/
def HasMadeId (node : Node) : Prop := node.ownId? = none ∧ node.id.isSome = true

instance (node : Node) : Decidable node.HasMadeId := inferInstanceAs (Decidable (_ ∧ _))

/-- What made keys begin with. -/
def keyStems : List String := ["checkbox_", "dropdown_"]

theorem keyStem?_mem {k : Kind} {stem : String} (h : k.keyStem? = some stem) : stem ∈ keyStems := by
  cases k <;> simp_all [Kind.keyStem?, keyStems]

/-- A node whose key is made of a position with some property. -/
def IsKeyed (Q : Text → Prop) (node : Node) : Prop :=
  ∃ stem ∈ keyStems, ∃ key position, node.id = some key ∧ key.toList = stem.toList ++ position
    ∧ Q position

/-- A made key is made of the position of its node. -/
theorem IsFrom.made {node : Node} {members : List (String × Json)} {position : String}
    (h : node.IsFrom members position) (hmade : node.HasMadeId) :
    node.IsKeyed (· = position.toList) := by
  obtain ⟨hown, hsome⟩ := hmade
  have hmember : Json.member? "id" node.attrs = Json.member? "id" members := by
    rw [h.attrs]
    exact Json.member?_eraseMember (by decide) members
  rw [ownId?, hmember] at hown
  -- whichever way the identifier is missing, what is left is the stem and the position
  have hid : node.id = (kindOf members).keyStem?.map (· ++ position) := by
    rw [h.id, idOf]
    split
    · next s hs => simp_all
    · next n hn => simp_all
    · rfl
  cases hstem : (kindOf members).keyStem? with
  | none => simp [hid, hstem] at hsome
  | some stem =>
      refine ⟨stem, keyStem?_mem hstem, stem ++ position, position.toList, ?_, ?_, rfl⟩
      · rw [hid, hstem]
        rfl
      · exact String.toList_append ..

/-- Keys that are made of different positions are different, also where the stems differ. -/
theorem id_ne_of_isKeyed {m n : Node} {Q R : Text → Prop} (hm : m.IsKeyed Q) (hn : n.IsKeyed R)
    (hapart : ∀ p, Q p → ¬ R p) : m.id ≠ n.id := by
  obtain ⟨stem, hstem, key, p, hid, hkey, hp⟩ := hm
  obtain ⟨stem', hstem', key', p', hid', hkey', hp'⟩ := hn
  intro heq
  have hlength : ∀ s ∈ keyStems, s.toList.length = 9 := by decide
  obtain rfl : key = key' := Option.some.inj (hid.symm.trans (heq.trans hid'))
  have happend : stem.toList ++ p = stem'.toList ++ p' := hkey.symm.trans hkey'
  have hposition := (List.append_inj happend (by rw [hlength _ hstem, hlength _ hstem'])).2
  exact hapart p hp (hposition ▸ hp')

end Node

/-! ## Positions -/

/-- Whether one position is another one or lies below it. -/
def Reaches (position p : Text) : Prop := p = position ∨ ∃ rest, p = position ++ '_' :: rest

theorem isDigit_of_mem_toString {n : Nat} {c : Char} (h : c ∈ (toString n).toList) :
    c.isDigit = true :=
  Nat.isDigit_of_mem_toDigits (b := 10) (by decide) (by decide) (by simpa using h)

/-- The digits in front of what follows an index are that index. -/
theorem takeWhile_of_reaches {n : Nat} {p : Text} (h : Reaches (toString n).toList p) :
    p.takeWhile Char.isDigit = (toString n).toList := by
  have hdigits : ∀ c ∈ (toString n).toList, c.isDigit = true := fun _ => isDigit_of_mem_toString
  have hfront : ∀ rest : Text, ((toString n).toList ++ rest).takeWhile Char.isDigit
      = (toString n).toList ++ rest.takeWhile Char.isDigit := fun _ =>
    List.takeWhile_append_of_pos hdigits
  rcases h with rfl | ⟨rest, rfl⟩
  · simpa only [List.append_nil, List.takeWhile_nil] using hfront []
  · have hunderscore : Char.isDigit '_' = false := by decide
    rw [hfront]
    simp [hunderscore]

theorem index_eq_of_reaches {m n : Nat} {p : Text} (hm : Reaches (toString m).toList p)
    (hn : Reaches (toString n).toList p) : m = n := by
  apply Route.toString_toList_inj
  rw [← takeWhile_of_reaches hm, takeWhile_of_reaches hn]

/-- Whether a position lies below an item, counted from an index, of another one. -/
def ReachesItem (position : Text) (index : Nat) (p : Text) : Prop :=
  ∃ k, index ≤ k ∧ ∃ below, p = position ++ '_' :: below ∧ Reaches (toString k).toList below

theorem reachesItem_of_reaches {position : String} {index : Nat} {p : Text}
    (h : Reaches (Node.childPosition position index).toList p) :
    ∃ below, p = position.toList ++ '_' :: below ∧ Reaches (toString index).toList below := by
  have hchild : (Node.childPosition position index).toList
      = position.toList ++ '_' :: (toString index).toList := by
    simp [Node.childPosition]
  rw [hchild] at h
  rcases h with rfl | ⟨rest, rfl⟩
  · exact ⟨_, rfl, .inl rfl⟩
  · exact ⟨(toString index).toList ++ '_' :: rest, by simp, .inr ⟨rest, rfl⟩⟩

theorem ReachesItem.reaches {position p : Text} {index : Nat} (h : ReachesItem position index p) :
    Reaches position p := by
  obtain ⟨k, -, below, hp, -⟩ := h
  exact .inr ⟨below, hp⟩

theorem ReachesItem.ne {position p : Text} {index : Nat} (h : ReachesItem position index p) :
    p ≠ position := by
  obtain ⟨k, -, below, rfl, -⟩ := h
  simp

/-- An item and those after it never meet. -/
theorem not_reachesItem_succ {position : String} {index : Nat} {p : Text}
    (h : Reaches (Node.childPosition position index).toList p) :
    ¬ ReachesItem position.toList (index + 1) p := by
  rintro ⟨k, hk, below, rfl, hbelow⟩
  obtain ⟨first, heq, hfirst⟩ := reachesItem_of_reaches h
  obtain ⟨-, rfl⟩ : '_' = '_' ∧ below = first := by simpa using heq
  have := index_eq_of_reaches hfirst hbelow
  omega

/-! ## Forests -/

/-- Nodes whose made keys are made of positions within a range, no two of them alike. -/
structure Keyed (Q : Text → Prop) (nodes : List Node) : Prop where
  isKeyed : ∀ n ∈ nodes, n.HasMadeId → n.IsKeyed Q
  distinct : nodes.Pairwise fun m n => m.HasMadeId → n.HasMadeId → m.id ≠ n.id

variable {Q R S : Text → Prop} {nodes more : List Node}

theorem Node.IsKeyed.mono {node : Node} (h : node.IsKeyed Q) (hQ : ∀ p, Q p → R p) :
    node.IsKeyed R := by
  obtain ⟨stem, hstem, key, p, hid, hkey, hp⟩ := h
  exact ⟨stem, hstem, key, p, hid, hkey, hQ p hp⟩

theorem keyed_nil : Keyed Q [] := ⟨by simp, .nil⟩

theorem Keyed.mono (h : Keyed Q nodes) (hQ : ∀ p, Q p → R p) : Keyed R nodes :=
  ⟨fun n hn hmade => (h.isKeyed n hn hmade).mono hQ, h.distinct⟩

/-- Forests whose positions never meet. -/
theorem Keyed.append (h : Keyed Q nodes) (hmore : Keyed R more) (hapart : ∀ p, Q p → ¬ R p)
    (hQ : ∀ p, Q p → S p) (hR : ∀ p, R p → S p) : Keyed S (nodes ++ more) := by
  constructor
  · intro n hn hmade
    rcases List.mem_append.mp hn with hn | hn
    · exact (h.isKeyed n hn hmade).mono hQ
    · exact (hmore.isKeyed n hn hmade).mono hR
  · refine List.pairwise_append.mpr ⟨h.distinct, hmore.distinct, ?_⟩
    intro m hm n hn hmadeM hmadeN
    exact Node.id_ne_of_isKeyed (h.isKeyed m hm hmadeM) (hmore.isKeyed n hn hmadeN) hapart

theorem keyed_singleton {node : Node} {members : List (String × Json)} {position : String}
    (h : node.IsFrom members position) : Keyed (· = position.toList) [node] :=
  ⟨by simpa using h.made, List.pairwise_singleton ..⟩

namespace Node

mutual

theorem keyed_ofJson? (v : Json) (position : String) :
    ∀ node ∈ ofJson? v position, Keyed (Reaches position.toList) node.preorder := by
  intro node hnode
  cases v with
  | object members =>
      obtain rfl := Option.some.inj hnode
      have hfrom : IsFrom ⟨kindOf members, idOf members position,
          Json.eraseMember "children" members, childrenOf members position⟩ members position :=
        ⟨rfl, rfl, rfl⟩
      exact (keyed_singleton hfrom).append (keyed_childrenOf members position) (fun p hp hitem => hitem.ne hp)
        (fun p hp => .inl hp) (fun p hp => hp.reaches)
  | _ => simp [ofJson?] at hnode

theorem keyed_childrenOf (members : List (String × Json)) (position : String) :
    Keyed (ReachesItem position.toList 0) (preorderAll (childrenOf members position)) := by
  match members with
  | [] => exact keyed_nil
  | (name, .array items) :: rest =>
      rw [childrenOf]
      split
      · exact keyed_ofItems items position 0
      · exact keyed_childrenOf rest position
  | (name, .null) :: rest | (name, .bool _) :: rest | (name, .number _) :: rest
  | (name, .string _) :: rest | (name, .object _) :: rest =>
      rw [childrenOf]
      · split
        · exact keyed_nil
        · exact keyed_childrenOf rest position
      · simp

/-- The items from an index on; one that is no object takes its index with it. -/
theorem keyed_ofItems (items : List Json) (position : String) (index : Nat) :
    Keyed (ReachesItem position.toList index) (preorderAll (ofItems items position index)) := by
  have hlater : ∀ p, ReachesItem position.toList (index + 1) p →
      ReachesItem position.toList index p := by
    rintro p ⟨k, hk, hp⟩
    exact ⟨k, by omega, hp⟩
  cases items with
  | nil => exact keyed_nil
  | cons item rest =>
      have hrest := keyed_ofItems rest position (index + 1)
      rw [ofItems]
      split
      · next node hnode =>
          have hfirst := keyed_ofJson? item (childPosition position index) node hnode
          refine hfirst.append hrest (fun p hp => not_reachesItem_succ hp) ?_ hlater
          intro p hp
          obtain ⟨below, hbelow⟩ := reachesItem_of_reaches hp
          exact ⟨index, Nat.le_refl _, below, hbelow⟩
      · exact hrest.mono hlater

end

end Node

/-! ## Canvases -/

/-- The nodes of all pages in document order. -/
def canvasNodes (pages : List Page) : List Node :=
  pages.flatMap fun page => Node.preorderAll page.components

theorem keyed_page {index : Nat} {v : Json} {page : Page} (h : Page.ofJson index v = .ok page) :
    Keyed (Reaches (toString index).toList) (Node.preorderAll page.components) := by
  cases v with
  | object members =>
      obtain rfl := Except.ok.inj h
      exact (Node.keyed_ofItems _ (toString index) 0).mono fun p hp => hp.reaches
  | _ => simp [Page.ofJson] at h

/-- The pages from an index on, each below its own index. -/
theorem keyed_pagesOfItems {items : List Json} {index : Nat} {pages : List Page}
    (h : pagesOfItems index items = .ok pages) :
    Keyed (fun p => ∃ k, index ≤ k ∧ Reaches (toString k).toList p) (canvasNodes pages) := by
  induction items generalizing index pages with
  | nil =>
      obtain rfl := Except.ok.inj h
      exact keyed_nil
  | cons item rest ih =>
      rw [pagesOfItems] at h
      cases hfirst : Page.ofJson index item with
      | error e => simp [hfirst, bind, Except.bind] at h
      | ok page =>
          cases hrest : pagesOfItems (index + 1) rest with
          | error e => simp [hfirst, hrest, bind, Except.bind] at h
          | ok more =>
              obtain rfl : page :: more = pages := by
                simpa [hfirst, hrest, bind, Except.bind, pure, Except.pure] using h
              refine (keyed_page hfirst).append (ih hrest) ?_ ?_ ?_
              · rintro p hp ⟨k, hk, hp'⟩
                have := index_eq_of_reaches hp hp'
                omega
              · exact fun p hp => ⟨index, Nat.le_refl _, hp⟩
              · rintro p ⟨k, hk, hp⟩
                exact ⟨k, by omega, hp⟩

theorem keyed_pagesOfJson {v : Json} {pages : List Page} (h : pagesOfJson v = .ok pages) :
    Keyed (fun _ => True) (canvasNodes pages) := by
  cases v with
  | array items => exact (keyed_pagesOfItems h).mono fun _ _ => trivial
  | object members =>
      rw [pagesOfJson] at h
      split at h
      · exact (keyed_pagesOfItems h).mono fun _ _ => trivial
      · simp at h
  | _ => simp [pagesOfJson] at h

/-- **Made keys never clash.** Of any two nodes of a canvas, on one page or on two and at any depth,
whose identifiers were made for want of their own, the identifiers are different. -/
theorem id_ne_of_hasMadeId {canvas : String} {pages : List Page}
    (h : parsePages canvas = .ok pages) :
    (canvasNodes pages).Pairwise fun m n => m.HasMadeId → n.HasMadeId → m.id ≠ n.id := by
  rw [parsePages] at h
  split at h
  · exact (keyed_pagesOfJson h).distinct
  · simp at h

/-- Inputs without identifiers: one behind an item that is no node, one whose identifier is empty,
and on the second page one with null and one with a truth value. -/
def namelessInputs : String :=
  "[\x7b\"components\":[\x7b\"type\":\"Container\",\"children\":[7,\x7b\"type\":\"Checkbox\"\x7d]\x7d,"
    ++ "\x7b\"type\":\"Checkbox\",\"id\":\"\"\x7d]\x7d,\x7b\"components\":[\x7b\"type\":\"Dropdown\","
    ++ "\"id\":null\x7d,\x7b\"type\":\"Checkbox\",\"id\":true\x7d]\x7d]"

/-- The made keys of a canvas, in document order. -/
def madeKeys : Except ExportError (List Page) → List String
  | .ok pages => ((canvasNodes pages).filter (·.HasMadeId)).filterMap (·.id)
  | .error _ => []

theorem id_ne_of_hasMadeId_namelessInputs :
    ∃ pages, parsePages namelessInputs = .ok pages
      ∧ madeKeys (.ok pages) = ["checkbox_0_0_1", "checkbox_0_1", "dropdown_1_0", "checkbox_1_1"]
      ∧ (canvasNodes pages).Pairwise fun m n => m.HasMadeId → n.HasMadeId → m.id ≠ n.id := by
  have hkeys : madeKeys (parsePages namelessInputs)
      = ["checkbox_0_0_1", "checkbox_0_1", "dropdown_1_0", "checkbox_1_1"] := by decide +kernel
  cases hpages : parsePages namelessInputs with
  | error e => simp [hpages, madeKeys] at hkeys
  | ok pages => exact ⟨pages, rfl, hpages ▸ hkeys, id_ne_of_hasMadeId hpages⟩

end CanvasFlutter
