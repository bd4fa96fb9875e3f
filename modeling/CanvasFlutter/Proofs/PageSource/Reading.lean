import CanvasFlutter.Proofs.PageSource.HeaderBar
import CanvasFlutter.Proofs.PageSource.Tokens
import CanvasFlutter.Proofs.Widget.Reading

namespace CanvasFlutter

/-!
# `CanvasFlutter.Proofs.PageSource.Reading` — what of its nodes a page depends on

The nodes of a page are read as widgets at the top of its body, but for the first header bar, of
which the app bar reads a little; and every node that carries state has a seed. Pages whose nodes
are alike for both have the same source.

## Contents
- **Pages.** `placedOn`, what is placed on a page; `AlikeOn.assemblePage_eq`.
- **Contexts.** A page with a hole, `Context`; what a node in the hole is drawn as (`Context.role`),
  and what follows for the page (`Context.alikeOn`, `Context.exists_length_placedOn`).
-/

open Dart Widget

variable {m n : Node} {ms ns nodes : List Node}

/-! ## Pages -/

/-- What is placed on a page. The first header bar at its top is left out. -/
def placedOn (nodes : List Node) : List Attributes :=
  placedAll .top (nodes.eraseP (·.kind = .headerBar))

theorem withoutHeader_eq_eraseP (nodes : List Node) :
    withoutHeader nodes = nodes.eraseP (·.kind = .headerBar) := by
  induction nodes with
  | nil => rfl
  | cons node rest ih =>
      rw [withoutHeader, ih]
      by_cases h : node.kind = .headerBar
      · rw [if_pos h, List.eraseP_cons_of_pos (by simpa using h)]
      · rw [if_neg h, List.eraseP_cons_of_neg (by simpa using h)]

theorem Widget.ReadAlike.seed (h : ReadAlike m n) : Seed.ofNode? m = Seed.ofNode? n := by
  have hof : Attributes.of m = ⟨m, n.kind⟩ := by rw [Attributes.of, h.kind]
  have hchoice : initialChoice m = initialChoice n := by
    rw [initialChoice, initialChoice, hof, h.ownText? (by decide), h.options, h.text (by decide)]
    rfl
  have hchecked : (Attributes.of m).flag "checked" = (Attributes.of n).flag "checked" := by
    rw [hof, h.flag (by decide), Attributes.of]
  rw [Seed.ofNode?, Seed.ofNode?, h.kind, h.stateKey, hchoice, hchecked]

mutual

/-- What is alike starts with the same state. -/
theorem Widget.Alike.seeds_eq {role : Role} (m : Node) {n : Node} (h : Alike role m n) :
    seeds [m] = seeds [n] := by
  have hread := h.readAlike
  have hbelow := h.children
  obtain ⟨kind, id, attrs, children⟩ := m
  have hnode : ∀ node : Node, seeds [node] = (Seed.ofNode? node).toList ++ seeds node.children := by
    rintro ⟨kind, id, attrs, children⟩
    rw [seeds, Node.preorderAll, Node.preorder, Node.preorderAll, List.append_nil,
      List.filterMap_cons, seeds]
    cases Seed.ofNode? ⟨kind, id, attrs, children⟩ <;> rfl
  rw [hnode, hnode, hread.seed, Widget.AlikeAll.seeds_eq children hbelow]

theorem Widget.AlikeAll.seeds_eq {role : Role} (ms : List Node) {ns : List Node}
    (h : AlikeAll role ms ns) : seeds ms = seeds ns := by
  cases ms with
  | nil =>
      cases h
      rfl
  | cons m ms =>
      cases h with
      | cons h hrest =>
          rw [seeds_cons, Widget.Alike.seeds_eq m h, Widget.AlikeAll.seeds_eq ms hrest, ← seeds_cons]

end

theorem Widget.Alike.topWidget_eq (h : Alike .top m n) : topWidget m = topWidget n := by
  rw [topWidget, topWidget, ← h.lower_eq m (.inl rfl)]
  cases hlower : lower m with
  | some c => rfl
  | none =>
      have hchildren : AlikeAll .inner m.children n.children := by
        have hbelow := h.children
        rwa [(lower_eq_none_iff m).mp hlower] at hbelow
      show place _ (panel _ _) = place _ (panel _ _)
      rw [h.readAlike.place, h.readAlike.panel, AlikeAll.lowerAll_eq _ hchildren]

theorem Widget.AlikeAll.topWidgets_eq (h : AlikeAll .top ms ns) :
    ms.map topWidget = ns.map topWidget := by
  induction ms generalizing ns with
  | nil =>
      cases h
      rfl
  | cons m ms ih =>
      cases h with
      | cons h hrest => rw [List.map_cons, List.map_cons, h.topWidget_eq, ih hrest]

/-- The first node of a kind in one forest is alike to that in the other. -/
theorem Widget.AlikeAll.find? {role : Role} (h : AlikeAll role ms ns) (kind : Kind) :
    Option.Rel (Alike role) (ms.find? (·.kind = kind)) (ns.find? (·.kind = kind)) := by
  induction ms generalizing ns with
  | nil =>
      cases h
      exact .none
  | cons m ms ih =>
      cases h with
      | cons h hrest =>
          rw [List.find?_cons, List.find?_cons, h.readAlike.kind]
          split
          · exact .some h
          · exact ih hrest

theorem Widget.Alike.appBar_eq {role : Role} (h : Alike role m n) : appBar m = appBar n := by
  have hfill : (Attributes.of m).paint "decoration.color"
      = (Attributes.of n).paint "decoration.color" := by
    rw [Attributes.of, Attributes.of, h.readAlike.kind, h.readAlike.paint (by decide)]
  have hlabel := h.children.find? .label
  unfold appBar
  rw [hfill]
  generalize m.children.find? (·.kind = .label) = label at hlabel ⊢
  generalize n.children.find? (·.kind = .label) = label' at hlabel ⊢
  cases hlabel with
  | none => rfl
  | @some label label' hlabel =>
      have hread := hlabel.readAlike
      have htext : (Attributes.of label).text "text" = (Attributes.of label').text "text" := by
        rw [Attributes.of, Attributes.of, hread.kind, hread.text (by decide)]
      have hcolor := hread.ownPaint? "color" (by decide)
      simp only [Option.map_some, Option.bind_some, Option.getD_some, htext, hcolor]

/-- Two pages that are told apart by nothing that is read of their nodes. -/
structure AlikeOn (ms ns : List Node) : Prop where
  all : AlikeAll .hidden ms ns
  top : AlikeAll .top (ms.eraseP (·.kind = .headerBar)) (ns.eraseP (·.kind = .headerBar))

/-- **A page depends on nothing but what is read of its nodes.** -/
theorem AlikeOn.assemblePage_eq (h : AlikeOn ms ns) (name : String) :
    assemblePage name ms = assemblePage name ns := by
  apply assemblePage_congr
  · have hheader : Option.Rel (Alike .hidden) (header? ms) (header? ns) := h.all.find? .headerBar
    generalize header? ms = bar, header? ns = bar' at hheader
    cases hheader with
    | none => rfl
    | some hbar => rw [Option.map_some, Option.map_some, hbar.appBar_eq]
  · rw [body, body, withoutHeader_eq_eraseP, withoutHeader_eq_eraseP, h.top.topWidgets_eq]
  · exact h.all.seeds_eq ms

/-- Nodes that differ in one of their children, and not in how that is drawn, are alike. -/
theorem Widget.Alike.inside {role : Role} {kind : Kind}
    (h : Alike (role.below kind) m n) (id : Option String) (attrs : List (String × Json))
    (before after : List Node) :
    Alike role ⟨kind, id, attrs, before ++ m :: after⟩ ⟨kind, id, attrs, before ++ n :: after⟩ := by
  have hread : ReadAlike ⟨kind, id, attrs, before ++ m :: after⟩
      ⟨kind, id, attrs, before ++ n :: after⟩ :=
    ⟨rfl, rfl, rfl, fun _ _ => rfl, fun _ _ => rfl, fun _ _ => rfl, fun _ _ => rfl,
      fun _ _ _ => rfl⟩
  exact .node hread (fun _ _ => rfl) (.append (.refl _ _) (.cons h (.refl _ _)))

/-! ## Contexts -/

/-- A page with a hole for one of its nodes. -/
inductive Context where
  /-- The hole is at the top of the page. -/
  | top (before after : List Node)
  /-- The hole is among the children of a node. -/
  | inside (outer : Context) (kind : Kind) (id : Option String) (attrs : List (String × Json))
      (before after : List Node)

namespace Context

/-- The page with a node in its hole. -/
def fill : Context → Node → List Node
  | top before after, node => before ++ node :: after
  | inside outer kind id attrs before after, node =>
      outer.fill ⟨kind, id, attrs, before ++ node :: after⟩

/-- What a node of some kind is drawn as in the hole. -/
def role : Context → Kind → Role
  | top before _, kind =>
      if kind = .headerBar ∧ ∀ n ∈ before, n.kind ≠ .headerBar then .hidden else .top
  | inside outer outerKind _ _ _ _, _ => (outer.role outerKind).below outerKind

mutual

theorem exists_fill_preorder (root : Node) (h : n ∈ root.preorder) (outer : Context) :
    ∃ ctx : Context, ctx.fill n = outer.fill root := by
  obtain ⟨kind, id, attrs, children⟩ := root
  rcases List.mem_cons.mp h with rfl | h
  · exact ⟨outer, rfl⟩
  · obtain ⟨before, child, after, rfl, hchild⟩ := exists_fill_children children h
    exact hchild (.inside outer kind id attrs before after)

theorem exists_fill_children (children : List Node) (h : n ∈ Node.preorderAll children) :
    ∃ before child after, children = before ++ child :: after
      ∧ ∀ outer : Context, ∃ ctx : Context, ctx.fill n = outer.fill child := by
  cases children with
  | nil => simp [Node.preorderAll] at h
  | cons first rest =>
      rcases List.mem_append.mp h with h | h
      · exact ⟨[], first, rest, rfl, exists_fill_preorder first h⟩
      · obtain ⟨before, child, after, heq, hchild⟩ := exists_fill_children rest h
        exact ⟨first :: before, child, after, by rw [heq, List.cons_append], hchild⟩

end

/-- Each node of a page fills a hole in it. -/
theorem exists_fill (h : n ∈ Node.preorderAll nodes) : ∃ ctx : Context, ctx.fill n = nodes := by
  obtain ⟨before, root, after, rfl, hroot⟩ := exists_fill_children nodes h
  exact hroot (.top before after)

/-- A node at the top of a page is part of its body, unless it is the header bar that is not. -/
theorem exists_eraseP_top (before after : List Node) (kind : Kind) :
    (∃ left right, role (top before after) kind = .top ∧ ∀ x : Node, x.kind = kind →
        (before ++ x :: after).eraseP (·.kind = .headerBar) = left ++ x :: right)
      ∨ role (top before after) kind = .hidden ∧ ∀ x : Node, x.kind = kind →
        (before ++ x :: after).eraseP (·.kind = .headerBar) = before ++ after := by
  by_cases hbefore : ∀ n ∈ before, n.kind ≠ .headerBar
  · have hfront : ∀ x, (before ++ x :: after).eraseP (·.kind = .headerBar)
        = before ++ (x :: after).eraseP (·.kind = .headerBar) := fun x =>
      List.eraseP_append_right _ fun n hn => by simpa using hbefore n hn
    by_cases hkind : kind = .headerBar
    · refine .inr ⟨if_pos ⟨hkind, hbefore⟩, fun x hx => ?_⟩
      rw [hfront, List.eraseP_cons_of_pos (by simpa using hx.trans hkind)]
    · refine .inl ⟨before, after.eraseP (·.kind = .headerBar), if_neg fun h => hkind h.1,
        fun x hx => ?_⟩
      rw [hfront, List.eraseP_cons_of_neg (by simpa [hx] using hkind)]
  · obtain ⟨bar, hbar, hheader⟩ : ∃ n ∈ before, n.kind = .headerBar := by simpa using hbefore
    refine .inl ⟨before.eraseP (·.kind = .headerBar), after, if_neg fun h => hbefore h.2,
      fun x _ => ?_⟩
    exact List.eraseP_append_left (by simpa using hheader) _ hbar

theorem alikeAll_fill (ctx : Context) (h : Alike .hidden m n) :
    AlikeAll .hidden (ctx.fill m) (ctx.fill n) := by
  induction ctx generalizing m n with
  | top before after => exact .append (.refl _ _) (.cons h (.refl _ _))
  | inside outer kind id attrs before after ih =>
      rw [← Role.below_hidden kind] at h
      exact ih (h.inside id attrs before after)

/-- Pages with nodes in the hole that are alike there. -/
theorem alikeOn (ctx : Context) (h : Alike (ctx.role m.kind) m n) :
    AlikeOn (ctx.fill m) (ctx.fill n) := by
  refine ⟨ctx.alikeAll_fill (h.hidden m), ?_⟩
  induction ctx generalizing m n with
  | top before after =>
      have hkind := h.readAlike.kind
      obtain ⟨left, right, hrole, herase⟩ | ⟨-, herase⟩ := exists_eraseP_top before after m.kind
      · rw [fill, fill, herase m rfl, herase n hkind.symm]
        exact .append (.refl _ _) (.cons (hrole ▸ h) (.refl _ _))
      · rw [fill, fill, herase m rfl, herase n hkind.symm]
        exact .refl _ _
  | inside outer kind id attrs before after ih => exact ih (h.inside id attrs before after)

/-- How much is placed on a page depends on the node in the hole by what is placed there. -/
theorem exists_length_placedOn (ctx : Context) (kind : Kind) :
    ∃ others, ∀ x : Node, x.kind = kind →
      (placedOn (ctx.fill x)).length = others + (placed (ctx.role kind) x).length := by
  induction ctx generalizing kind with
  | top before after =>
      obtain ⟨left, right, hrole, herase⟩ | ⟨hrole, herase⟩ := exists_eraseP_top before after kind
      · refine ⟨(placedAll .top left).length + (placedAll .top right).length, fun x hx => ?_⟩
        rw [placedOn, fill, herase x hx, hrole, placedAll_append, placedAll, List.length_append,
          List.length_append]
        omega
      · refine ⟨(placedAll .top (before ++ after)).length, fun x hx => ?_⟩
        rw [placedOn, fill, herase x hx, hrole, placed_hidden]
        rfl
  | inside outer outerKind id attrs before after ih =>
      obtain ⟨others, hothers⟩ := ih outerKind
      refine ⟨others + ((outer.role outerKind).placed? ⟨outerKind, id, attrs, []⟩).toList.length
        + (placedAll ((outer.role outerKind).below outerKind) before).length
        + (placedAll ((outer.role outerKind).below outerKind) after).length, fun x _ => ?_⟩
      rw [fill, role, hothers _ rfl, placed, placedAll_append, placedAll, List.length_append,
        List.length_append, List.length_append, Role.length_placed? _ (before ++ x :: after) []]
      omega

end Context

end CanvasFlutter
