import CanvasFlutter.PageSource.Compile
import CanvasFlutter.Proofs.Canvas.Prune
import CanvasFlutter.Proofs.PageSource.Reading

namespace CanvasFlutter

/-!
# `CanvasFlutter.Proofs.PageSource.Prune` — null makes no difference to a page

Widgets, seeds and app bars are made of what the accessors give, and these give the same for a
pruned node, so a canvas and its pruned form are compiled alike.

## Contents
- **Nodes.** `readAlike_prune`, `alike_prune`.
- **Pages.** `assemblePage_pruneAll`, `map_compilePages_prune`.
-/

open Dart Widget

variable {nodes : List Node}

/-! ## Nodes -/

/-- Every accessor gives the same for a pruned node. -/
theorem readAlike_prune {node : Node} (h : node.HasUniqueNames) : ReadAlike node.prune node where
  kind := Node.kind_prune node
  stateKey := Node.stateKey_prune node
  options := Node.list_prune h _
  number? path _ := Node.number?_prune h path
  flag? path _ := Node.flag?_prune h path
  text? path _ := Node.text?_prune h path
  ownPaint? path _ := by
    show (node.prune.text? path).bind _ = (node.text? path).bind _
    rw [Node.text?_prune h]
  offset _ path _ := Node.number?_prune h path

theorem isAnchored_prune {node : Node} (h : node.HasUniqueNames) :
    isAnchored node.prune = isAnchored node := by
  have hown : (Attributes.of node.prune).ownText? "alignment"
      = (Attributes.of node).ownText? "alignment" := by
    rw [Attributes.of, Attributes.of, Node.kind_prune, (readAlike_prune h).ownText? (by decide)]
  rw [isAnchored, hown, Node.hasAttr_prune h, Node.hasAttr_prune h, isAnchored]

mutual

/-- A pruned node is alike to the node, whatever it is drawn as. -/
theorem alike_prune (role : Role) (node : Node) (h : ∀ n ∈ node.preorder, n.HasUniqueNames) :
    Alike role node.prune node := by
  have hunique := h _ (mem_preorder_self node)
  refine .node (readAlike_prune hunique) (fun _ _ => isAnchored_prune hunique) ?_
  obtain ⟨kind, id, attrs, children⟩ := node
  exact alikeAll_pruneAll _ children fun n hn => h n (List.mem_cons_of_mem _ hn)

theorem alikeAll_pruneAll (role : Role) (nodes : List Node)
    (h : ∀ n ∈ Node.preorderAll nodes, n.HasUniqueNames) :
    AlikeAll role (Node.pruneAll nodes) nodes := by
  cases nodes with
  | nil => exact .nil
  | cons node rest =>
      simp only [Node.preorderAll, List.forall_mem_append] at h
      exact .cons (alike_prune role node h.1) (alikeAll_pruneAll role rest h.2)

end

/-! ## Pages -/

theorem eraseP_pruneAll (nodes : List Node) (kind : Kind) :
    (Node.pruneAll nodes).eraseP (·.kind = kind) = Node.pruneAll (nodes.eraseP (·.kind = kind)) := by
  simp only [Node.pruneAll_eq_map, List.eraseP_map, Function.comp_def, Node.kind_prune]

theorem assemblePage_pruneAll (name : String)
    (h : ∀ n ∈ Node.preorderAll nodes, n.HasUniqueNames) :
    assemblePage name (Node.pruneAll nodes) = assemblePage name nodes := by
  apply AlikeOn.assemblePage_eq
  refine ⟨alikeAll_pruneAll .hidden nodes h, ?_⟩
  rw [eraseP_pruneAll]
  refine alikeAll_pruneAll .top _ fun n hn => ?_
  obtain ⟨root, hroot, hn⟩ := mem_preorderAll.mp hn
  exact h n (mem_preorderAll.mpr ⟨root, List.mem_of_mem_eraseP hroot, hn⟩)

theorem compilePages_map_prune {pages : List Page}
    (h : ∀ page ∈ pages, ∀ n ∈ Node.preorderAll page.components, n.HasUniqueNames) :
    compilePages (pages.map Page.prune) = compilePages pages := by
  have hroutes : planRoutes (pages.map Page.prune) = planRoutes pages := by
    rw [planRoutes, planRoutes, List.map_map]
    rfl
  rw [compilePages, compilePages, hroutes]
  generalize planRoutes pages = routes
  clear hroutes
  induction pages generalizing routes with
  | nil => rfl
  | cons page rest ih =>
      rw [List.forall_mem_cons] at h
      cases routes with
      | nil => rfl
      | cons route routes =>
          rw [List.map_cons, List.zipWith_cons_cons, List.zipWith_cons_cons, ih h.2, Page.prune,
            assemblePage_pruneAll route.className h.1]

/-- **Null counts as missing, everywhere in a canvas.** A value and its pruned form are refused for
the same reason, or they give the same routes and the same sources. -/
theorem map_compilePages_prune {v : Json} (h : v.HasUniqueNames) :
    (pagesOfJson v.prune).map compilePages = (pagesOfJson v).map compilePages := by
  rw [pagesOfJson_prune h]
  cases hpages : pagesOfJson v with
  | error e => rfl
  | ok pages =>
      exact congrArg Except.ok
        (compilePages_map_prune fun _ => hasUniqueNames_of_pagesOfJson h hpages)

/-- A label of which nothing is known but its kind, on a page without a name. -/
def nullLabel : Json :=
  .object [("children", .null), ("decoration", .object [("color", .null)]), ("text", .null),
    ("type", .string "Text")]

/-- A canvas that writes null wherever it can. -/
def nullCanvas : Json :=
  .object [("pages", .array [.object [("components", .array [.null, nullLabel]), ("name", .null)]])]

theorem map_compilePages_prune_nullCanvas :
    nullCanvas.HasUniqueNames
      ∧ nullCanvas.prune = .object [("pages", .array [.object [("components", .array [.null,
          .object [("decoration", .object []), ("type", .string "Text")]])]])]
      ∧ (pagesOfJson nullCanvas.prune).map compilePages
        = (pagesOfJson nullCanvas).map compilePages := by
  have hnull : Json.null.HasUniqueNames := Json.hasUniqueNames_leaf rfl rfl
  have htag : (Json.string "Text").HasUniqueNames := Json.hasUniqueNames_leaf rfl rfl
  have hdecoration : (Json.object [("color", .null)]).HasUniqueNames :=
    Json.hasUniqueNames_object (by decide) (by simpa using hnull)
  have hlabel : nullLabel.HasUniqueNames :=
    Json.hasUniqueNames_object (by decide) (by simpa using ⟨hnull, hdecoration, hnull, htag⟩)
  have hcomponents : (Json.array [.null, nullLabel]).HasUniqueNames :=
    Json.hasUniqueNames_array (by simpa using ⟨hnull, hlabel⟩)
  have hpage : (Json.object [("components", .array [.null, nullLabel]),
      ("name", .null)]).HasUniqueNames :=
    Json.hasUniqueNames_object (by decide) (by simpa using ⟨hcomponents, hnull⟩)
  have hcanvas : nullCanvas.HasUniqueNames :=
    Json.hasUniqueNames_object (by decide)
      (by simpa using Json.hasUniqueNames_array (by simpa using hpage))
  exact ⟨hcanvas, rfl, map_compilePages_prune hcanvas⟩

end CanvasFlutter
