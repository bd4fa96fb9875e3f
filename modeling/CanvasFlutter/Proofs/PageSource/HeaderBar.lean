import CanvasFlutter.PageSource.Assemble

namespace CanvasFlutter

/-!
# `CanvasFlutter.Proofs.PageSource.HeaderBar` — where the header bar stands does not matter

The first header bar at the top of a page leaves the body, so only the order of the other nodes
counts; seeds follow document order, which is why a bar that holds inputs may not move. Each later
bar is drawn as a panel would be, with the fallbacks of panels.

## Contents
- **Forests.** `preorderAll`, seeds and state of forests put together.
- **Panels.** `Node.asPanel`; `lower_asPanel`, `seeds_asPanel`.
- **Pages.** `PageClass.ofNodes` of a page around its bar, and `assemblePage_bar`.
-/

open Dart Widget

variable {bar : Node} {before after : List Node}

/-! ## Forests -/

theorem Node.preorderAll_append (nodes more : List Node) :
    preorderAll (nodes ++ more) = preorderAll nodes ++ preorderAll more := by
  induction nodes with
  | nil => rfl
  | cons node rest ih => rw [List.cons_append, preorderAll, preorderAll, ih, List.append_assoc]

theorem seeds_append (nodes more : List Node) :
    seeds (nodes ++ more) = seeds nodes ++ seeds more := by
  rw [seeds, Node.preorderAll_append, List.filterMap_append, seeds, seeds]

theorem seeds_cons (node : Node) (rest : List Node) :
    seeds (node :: rest) = seeds [node] ++ seeds rest :=
  seeds_append [node] rest

/-- A forest has state exactly if it has a seed. -/
theorem isStateful_congr {nodes more : List Node} (h : seeds nodes = seeds more) :
    isStateful nodes = isStateful more := by
  rw [Bool.eq_iff_iff, ← Bool.not_eq_false, ← Bool.not_eq_false, isStateful_eq_false_iff,
    isStateful_eq_false_iff, h]

/-! ## Panels -/

/-- A header bar made a panel; any other node as it is. -/
def Node.asPanel (node : Node) : Node :=
  if node.kind = .headerBar then { node with kind := .panel } else node

/-- A bar that is drawn as a panel is drawn like the panel it would be. -/
theorem lower_asPanel (node : Node) : lower node.asPanel = some (topWidget node) := by
  obtain ⟨kind, id, attrs, children⟩ := node
  cases kind with
  | headerBar =>
      -- attributes are read without regard to the kind of the node that holds them
      rfl
  | _ => rfl

theorem topWidget_asPanel (node : Node) : topWidget node.asPanel = topWidget node := by
  rw [topWidget, lower_asPanel, Option.getD_some]

/-- Neither a header bar nor a panel carries state. -/
theorem seeds_asPanel (nodes : List Node) : seeds (nodes.map Node.asPanel) = seeds nodes := by
  induction nodes with
  | nil => rfl
  | cons node rest ih =>
      rw [List.map_cons, seeds_cons, ih, seeds_cons node]
      congr 1
      obtain ⟨kind, id, attrs, children⟩ := node
      cases kind <;> rfl

/-! ## Pages -/

theorem withoutHeader_bar (hbar : bar.kind = .headerBar)
    (hbefore : ∀ n ∈ before, n.kind ≠ .headerBar) (after : List Node) :
    withoutHeader (before ++ bar :: after) = before ++ after := by
  induction before with
  | nil => rw [List.nil_append, withoutHeader, if_pos hbar, List.nil_append]
  | cons node rest ih =>
      rw [List.forall_mem_cons] at hbefore
      rw [List.cons_append, withoutHeader, if_neg hbefore.1, ih hbefore.2, List.cons_append]

theorem header?_bar (hbar : bar.kind = .headerBar) (hbefore : ∀ n ∈ before, n.kind ≠ .headerBar)
    (after : List Node) : header? (before ++ bar :: after) = some bar := by
  have hnone : before.find? (·.kind = .headerBar) = none := by simpa using hbefore
  rw [header?, List.find?_append, hnone, Option.none_or, List.find?_cons]
  simp [hbar]

/-- A page is made of its app bar, of its body and of its seeds. -/
theorem assemblePage_congr {nodes others : List Node}
    (hbar : (header? nodes).map appBar = (header? others).map appBar)
    (hbody : body nodes = body others) (hseeds : seeds nodes = seeds others) (name : String) :
    assemblePage name nodes = assemblePage name others := by
  have hscaffold : ∀ found : List Node, scaffold found
      = .call "Scaffold" [.named "appBar" (((header? found).map appBar).getD defaultAppBar),
          .named "body" (stack (body found))] := by
    intro found
    rw [scaffold]
    cases header? found <;> rfl
  rw [assemblePage, assemblePage, PageClass.ofNodes, PageClass.ofNodes, isStateful_congr hseeds,
    hseeds, hscaffold, hscaffold, hbar, hbody]

theorem seeds_of_stateless {node : Node}
    (h : ∀ n ∈ node.preorder, n.kind ≠ .toggleBox ∧ n.kind ≠ .choiceDropdown) :
    seeds [node] = [] := by
  rw [seeds, List.filterMap_eq_nil_iff]
  intro n hn
  rw [Node.preorderAll, Node.preorderAll, List.append_nil] at hn
  obtain ⟨htoggle, hchoice⟩ := h n hn
  unfold Seed.ofNode?
  split
  · contradiction
  · contradiction
  · rfl

/-- **Where the header bar stands does not matter.** A page stays the same if the header bars after
the first one are made panels, and if the first one, unless it holds a box to tick or a dropdown, is
moved to the front. -/
theorem assemblePage_bar (hbar : bar.kind = .headerBar)
    (hbefore : ∀ n ∈ before, n.kind ≠ .headerBar) (name : String) (after : List Node) :
    assemblePage name (before ++ bar :: after)
        = assemblePage name (before ++ bar :: after.map Node.asPanel)
      ∧ ((∀ n ∈ bar.preorder, n.kind ≠ .toggleBox ∧ n.kind ≠ .choiceDropdown) →
        assemblePage name (before ++ bar :: after)
          = assemblePage name (bar :: (before ++ after))) := by
  constructor
  · apply assemblePage_congr
    · rw [header?_bar hbar hbefore, header?_bar hbar hbefore]
    · rw [body, body, withoutHeader_bar hbar hbefore, withoutHeader_bar hbar hbefore,
        List.map_append, List.map_append, List.map_map]
      congr 1
      exact List.map_congr_left fun node _ => (topWidget_asPanel node).symm
    · rw [seeds_append, seeds_append, seeds_cons bar after, seeds_cons bar (after.map _),
        seeds_asPanel]
  · intro hstateless
    have hfront : ∀ n ∈ ([] : List Node), n.kind ≠ .headerBar := by simp
    apply assemblePage_congr
    · have hmoved := header?_bar hbar hfront (before ++ after)
      rw [List.nil_append] at hmoved
      rw [header?_bar hbar hbefore, hmoved]
    · have hmoved := withoutHeader_bar hbar hfront (before ++ after)
      rw [List.nil_append] at hmoved
      rw [body, body, withoutHeader_bar hbar hbefore, hmoved, List.nil_append]
    · rw [seeds_append, seeds_cons bar after, seeds_cons bar (before ++ after),
        seeds_of_stateless hstateless, List.nil_append, List.nil_append, seeds_append]

/-- A header bar with one node in it. -/
def barOf (child : Node) : Node :=
  ⟨.headerBar, none, [("decoration", .object [("color", .string "#112233")])], [child]⟩

/-- A label with a text. -/
def labelOf (text : String) : Node := ⟨.label, none, [("text", .string text)], []⟩

/-- A box to tick with a key. -/
def toggleOf (key : String) : Node := ⟨.toggleBox, some key, [], []⟩

theorem assemblePage_bar_twoBars :
    (barOf (labelOf "Home")).kind = .headerBar
      ∧ (∀ n ∈ [labelOf "first"], n.kind ≠ .headerBar)
      ∧ (∀ n ∈ (barOf (labelOf "Home")).preorder, n.kind ≠ .toggleBox ∧ n.kind ≠ .choiceDropdown)
      ∧ assemblePage "HomePage"
          [labelOf "first", barOf (labelOf "Home"), barOf (toggleOf "a"), toggleOf "b"]
        = assemblePage "HomePage"
          [labelOf "first", barOf (labelOf "Home"), (barOf (toggleOf "a")).asPanel, toggleOf "b"]
      ∧ assemblePage "HomePage"
          [labelOf "first", barOf (labelOf "Home"), barOf (toggleOf "a"), toggleOf "b"]
        = assemblePage "HomePage"
          [barOf (labelOf "Home"), labelOf "first", barOf (toggleOf "a"), toggleOf "b"] := by
  have hbar : (barOf (labelOf "Home")).kind = .headerBar := rfl
  have hbefore : ∀ n ∈ [labelOf "first"], n.kind ≠ .headerBar := by simp [labelOf]
  have hstateless : ∀ n ∈ (barOf (labelOf "Home")).preorder,
      n.kind ≠ .toggleBox ∧ n.kind ≠ .choiceDropdown := by
    simp [barOf, labelOf, Node.preorder, Node.preorderAll]
  obtain ⟨hpanels, hmoved⟩ :=
    assemblePage_bar hbar hbefore "HomePage" [barOf (toggleOf "a"), toggleOf "b"]
  exact ⟨hbar, hbefore, hstateless, hpanels, hmoved hstateless⟩

-- A bar that holds an input may not move: its seed would move with it.
example : seeds [toggleOf "a", barOf (toggleOf "b")] = [.ticked "a" false, .ticked "b" false]
    ∧ seeds [barOf (toggleOf "b"), toggleOf "a"] = [.ticked "b" false, .ticked "a" false] := by
  decide

end CanvasFlutter
