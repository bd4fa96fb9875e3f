import CanvasFlutter.Widget.Lower

namespace CanvasFlutter.Widget

/-!
# `CanvasFlutter.Proofs.Widget.Role` — what becomes of a node

How a node is drawn depends on where it stands: at the top of a page, in a panel, over a button with
an icon, or in something that shows nothing of what is in it.

## Contents
- **Roles.** `Role`, and `Role.below` for what is inside a node.
- **Places.** `isAnchored`; `placed` lists what is given a place of its own, in document order.
-/

/-! ## Roles -/

/-- What a node is drawn as. -/
inductive Role where
  /-- A widget at the top of a page, where a header bar is drawn as a panel. -/
  | top
  /-- A widget in a panel. -/
  | inner
  /-- A label over a button with an icon. -/
  | overlay
  /-- Nothing. -/
  | hidden
  deriving DecidableEq

/-- What the children of a node are drawn as. -/
def Role.below : Role → Kind → Role
  | .top, .headerBar => .inner
  | .top, .panel => .inner
  | .inner, .panel => .inner
  | .top, .iconAction => .overlay
  | .inner, .iconAction => .overlay
  | _, _ => .hidden

theorem Role.below_hidden (kind : Kind) : Role.below .hidden kind = .hidden := by
  cases kind <;> rfl

theorem Role.below_overlay (kind : Kind) : Role.below .overlay kind = .hidden := by
  cases kind <;> rfl

/-! ## Places -/

/-- Whether a label over a button says where it stands. -/
def isAnchored (node : Node) : Bool :=
  ((Attributes.of node).ownText? "alignment").isSome || node.hasAttr "top" || node.hasAttr "left"

/-- What a node is placed by, if it is given a place of its own. -/
def Role.placed? : Role → Node → Option Attributes
  | .top, node => some ⟨node, if node.kind = .headerBar then .panel else node.kind⟩
  | .inner, node => if node.kind = .headerBar then none else some (.of node)
  | .overlay, node => if node.kind = .label ∧ isAnchored node = true then some (.of node) else none
  | .hidden, _ => none

/-- Whether a node is placed does not depend on what is in it. -/
theorem Role.length_placed? (role : Role) {kind : Kind} {id : Option String}
    {attrs : List (String × Json)} (children others : List Node) :
    (role.placed? ⟨kind, id, attrs, children⟩).toList.length
      = (role.placed? ⟨kind, id, attrs, others⟩).toList.length := by
  have hanchored : isAnchored ⟨kind, id, attrs, children⟩ = isAnchored ⟨kind, id, attrs, others⟩ := rfl
  cases role with
  | top => rfl
  | inner =>
      rw [Role.placed?, Role.placed?]
      split <;> rfl
  | overlay =>
      rw [Role.placed?, Role.placed?, hanchored]
      split <;> rfl
  | hidden => rfl

mutual

/-- What is placed for a node and for all below it, each before its children. -/
def placed (role : Role) : Node → List Attributes
  | ⟨kind, id, attrs, children⟩ =>
      (role.placed? ⟨kind, id, attrs, children⟩).toList ++ placedAll (role.below kind) children

/-- What is placed for a forest, in document order. -/
def placedAll (role : Role) : List Node → List Attributes
  | [] => []
  | node :: rest => placed role node ++ placedAll role rest

end

theorem placed_eq (role : Role) (node : Node) :
    placed role node
      = (role.placed? node).toList ++ placedAll (role.below node.kind) node.children := by
  obtain ⟨kind, id, attrs, children⟩ := node
  rfl

theorem placedAll_append (role : Role) (nodes more : List Node) :
    placedAll role (nodes ++ more) = placedAll role nodes ++ placedAll role more := by
  induction nodes with
  | nil => rfl
  | cons node rest ih => rw [List.cons_append, placedAll, placedAll, ih, List.append_assoc]

mutual

/-- Nothing is placed where nothing is drawn. -/
theorem placed_hidden (node : Node) : placed .hidden node = [] := by
  obtain ⟨kind, id, attrs, children⟩ := node
  rw [placed, Role.below_hidden, placedAll_hidden children]
  rfl

theorem placedAll_hidden (nodes : List Node) : placedAll .hidden nodes = [] := by
  cases nodes with
  | nil => rfl
  | cons node rest => rw [placedAll, placed_hidden node, placedAll_hidden rest, List.append_nil]

end

/-- A node in which nothing is drawn is placed by itself, if at all. -/
theorem placed_of_below_hidden {role : Role} {node : Node} (h : role.below node.kind = .hidden) :
    placed role node = (role.placed? node).toList := by
  rw [placed_eq, h, placedAll_hidden, List.append_nil]

/-- A header bar inside another node is left out with all that is in it. -/
theorem placed_inner_of_headerBar {node : Node} (h : node.kind = .headerBar) :
    placed .inner node = [] := by
  rw [placed_of_below_hidden (h ▸ rfl), Role.placed?, if_pos h]
  rfl

/-- A label over a button is placed if it says where it stands. -/
theorem placed_overlay (node : Node) :
    placed .overlay node
      = if node.kind = .label ∧ isAnchored node = true then [.of node] else [] := by
  rw [placed_of_below_hidden (Role.below_overlay node.kind), Role.placed?]
  split <;> rfl

/-- A node at the top of a page is placed as it is in a panel, unless it is a header bar. -/
theorem placed_top {node : Node} (h : node.kind ≠ .headerBar) :
    placed .top node = placed .inner node := by
  have hbelow : Role.below .top node.kind = Role.below .inner node.kind := by
    cases hkind : node.kind <;> first | rfl | exact absurd hkind h
  rw [placed_eq, placed_eq, hbelow, Role.placed?, Role.placed?, if_neg h, if_neg h]
  rfl

end CanvasFlutter.Widget
