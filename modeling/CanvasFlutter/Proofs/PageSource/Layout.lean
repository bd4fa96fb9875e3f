import CanvasFlutter.Proofs.Dart.Spelling
import CanvasFlutter.Proofs.PageSource.Tokens

namespace CanvasFlutter

/-!
# `CanvasFlutter.Proofs.PageSource.Layout` — layout never changes a page

The source of a page is read as the same tokens as the source of its scaffold on one line. Each
widget stands among them with the tokens that it has by itself, however far its lines have been
moved to the right on the way. Brackets match, and no string literal leaves its line.

## Contents
- **Brackets.** `nested_tokens`.
- **Widgets.** `Drawn` lists the widgets of a page with their nodes; `Drawn.infix_scaffold`.
- **Depth.** `Moved` blocks; `Widget.Made.tokens?_moved`.
- **Pages.** `tokens?_assemblePage`.
-/

open Dart Lexer Widget

variable {scope : Scope} {nodes : List Node}

/-! ## Brackets -/

theorem nested_classTokens {name : Text} (hname : IsClassName name) : Nested (classTokens name) := by
  obtain heq | ⟨digits, -, -, heq⟩ := hname.classTokens_eq
  · exact heq ▸ nested_word name
  · exact heq ▸ (nested_numeral digits).append (nested_word _)

theorem nested_buildTokens {scaffold : Code} (h : Made scope scaffold) :
    Nested (buildTokens scaffold) := by
  have hopen : nest [] (fixed "@override Widget build(BuildContext context) \x7b return")
      = some [.mark ['}']] := by decide +kernel
  have hend : nest [.mark ['}']] (fixed "; \x7d") = some [] := by decide +kernel
  simp only [Nested, buildTokens, nest_append, hopen, h.nested.nest, hend, Option.bind_some]

/-- The brackets of a page with state up to its seeds: those of a class and a method are open. -/
theorem nest_statefulHead {name : Text} (hname : IsClassName name) :
    nest [] (statefulHead name) = some [.mark ['}'], .mark ['}']] := by
  have hnested : ∀ s ∈ [materialImport, "class", "const", "(\x7bsuper.key\x7d);", "@override",
      "State", "();", "extends State", "final Map<String, String>", "= \x7b\x7d;",
      "final Map<String, bool>", "super.initState();"], Nested (fixed s) := by decide +kernel
  have hopened : ∀ s ∈ ["extends StatefulWidget \x7b", "void initState() \x7b"],
      nest [] (fixed s) = some [.mark ['}']] := by decide +kernel
  have hstays := fun s hs => (hnested s hs).nest
  have hopens := fun s hs => nest_opens (hopened s hs)
  have hangle : ∀ pending, nest pending [.mark ['<']] = some (.mark ['>'] :: pending) :=
    nest_opens (by decide)
  have hcreate : ∀ pending, nest (.mark ['>'] :: pending) (fixed "> createState() =>")
      = some pending := nest_closes (by decide +kernel)
  have hbody : nest [.mark ['>']] (fixed "> \x7b") = some [.mark ['}']] := by decide +kernel
  have hstate : ∀ pending, nest (.mark ['>'] :: pending) (fixed "> \x7b")
      = some (.mark ['}'] :: pending) := nest_frame hbody
  have hclose : ∀ pending, nest (.mark ['}'] :: pending) (fixed "\x7d") = some pending :=
    nest_closes (by decide +kernel)
  have hname := (nested_classTokens hname).nest
  have hword := fun source => (nested_word source).nest
  simp only [List.forall_mem_cons] at hstays hopens
  unfold statefulHead statefulFrame
  simp only [List.flatten_cons, List.flatten_nil, nest_append, nest_nil, Option.bind_some, hstays,
    hopens, hangle, hcreate, hstate, hclose, hname, hword]

theorem nested_seed {seed : Seed} (h : Made scope seed.code) : Nested seed.tokens :=
  h.nested.append (by decide)

theorem nested_statefulTokens {name : Text} (hname : IsClassName name) {seeds : List Seed}
    (hseeds : ∀ seed ∈ seeds, Made scope seed.code) {build : List Token} (hbuild : Nested build) :
    Nested (statefulTokens name seeds build) := by
  have hseeds : Nested (seeds.flatMap Seed.tokens) :=
    nested_flatMap fun seed hseed => nested_seed (hseeds seed hseed)
  have hclose : ∀ pending, nest (.mark ['}'] :: pending) (fixed "\x7d") = some pending :=
    nest_closes (by decide +kernel)
  simp only [Nested, statefulTokens, nest_append, nest_statefulHead hname, hseeds.nest, hbuild.nest,
    hclose, Option.bind_some]

theorem nested_statelessTokens {name : Text} (hname : IsClassName name) {build : List Token}
    (hbuild : Nested build) : Nested (statelessTokens name build) := by
  have hnested : ∀ s ∈ [materialImport, "class", "const", "(\x7bsuper.key\x7d);"],
      Nested (fixed s) := by decide +kernel
  have hopen : ∀ pending, nest pending (fixed "extends StatelessWidget \x7b")
      = some (.mark ['}'] :: pending) := nest_opens (by decide +kernel)
  have hclose : ∀ pending, nest (.mark ['}'] :: pending) (fixed "\x7d") = some pending :=
    nest_closes (by decide +kernel)
  have hstays := fun s hs => (hnested s hs).nest
  simp only [List.forall_mem_cons] at hstays
  simp only [Nested, statelessTokens, List.flatten_cons, List.flatten_nil, nest_append, nest_nil,
    hstays, hopen, (nested_classTokens hname).nest, hbuild.nest, hclose, Option.bind_some]

/-- All brackets of a page match. -/
theorem nested_tokens {name : String} (hname : IsClassName name.toList)
    (h : ∀ n ∈ Node.preorderAll nodes, Admits scope n) :
    Nested (PageClass.ofNodes name nodes).tokens := by
  have hbuild := nested_buildTokens (made_scaffold h)
  simp only [PageClass.tokens, PageClass.ofNodes]
  cases isStateful nodes with
  | true => exact nested_statefulTokens hname (fun seed => made_seed h) hbuild
  | false => exact nested_statelessTokens hname hbuild

/-! ## Widgets -/

/-- The widgets that a page draws, each with the node that it is drawn for. -/
inductive Drawn (nodes : List Node) : Node → Code → Prop where
  /-- A node at the top of the page, but for the first header bar. -/
  | top {node : Node} (h : node ∈ withoutHeader nodes) : Drawn nodes node (topWidget node)
  /-- A node inside one that is drawn as a panel. -/
  | inside {parent node : Node} {outer c : Code} (hparent : Drawn nodes parent outer)
      (hpanel : parent.kind = .panel ∨ parent.kind = .headerBar) (h : node ∈ parent.children)
      (hc : lower node = some c) : Drawn nodes node c
  /-- A label over a button with an icon. -/
  | overlay {parent node : Node} {outer : Code} (hparent : Drawn nodes parent outer)
      (hbutton : parent.kind = .iconAction) (h : node ∈ parent.children)
      (hlabel : node.kind = .label) :
      Drawn nodes node (overlayLabel ((Attributes.of parent).paint "overlayColor") node)

/-- A tree that stands in another one: its pieces among those of the other, and its source in that
of the other, with its lines moved to the right. -/
structure Stands (scope : Scope) (c d : Code) : Prop where
  made : Made scope c
  pieces : c.pieces <:+: d.pieces
  source : ∃ n, Layout.indentTail c.render n <:+: d.render

section Stands

variable {c d e : Code}

theorem Stands.trans (h : Stands scope c d) (hd : Stands scope d e) : Stands scope c e where
  made := h.made
  pieces := h.pieces.trans hd.pieces
  source := by
    obtain ⟨n, hn⟩ := h.source
    obtain ⟨m, hm⟩ := hd.source
    have hblock := h.made.reads_render.block
    have hmoved := Layout.indentTail_infix (hblock.indentTail n) hd.made.reads_render.block hn m
    exact ⟨m + n, Layout.indentTail_indentTail hblock m n ▸ hmoved.trans hm⟩

theorem infix_flatMap {α β : Type} {l : List α} {a : α} (h : a ∈ l) (f : α → List β) :
    f a <:+: l.flatMap f := List.infix_of_mem_flatten (List.mem_map_of_mem h)

theorem infix_parts {args : List Code} (h : c ∈ args) (sign : String) :
    c.pieces <:+: Piece.parts sign (Code.piecesAll args) := by
  have hrow : c.pieces ∈ args.map Code.pieces := List.mem_map_of_mem h
  rw [Code.piecesAll_eq_map, Piece.parts]
  exact (List.prefix_append _ _).isInfix.trans
    (infix_flatMap hrow fun row => row ++ [Piece.fixed sign])

theorem stands_named (name : String) (h : Made scope c) : Stands scope c (.named name c) where
  made := h
  pieces := ⟨[.fixed name, .fixed ":"], [], by simp [Code.pieces]⟩
  source := ⟨0, by
    rw [Layout.indentTail_zero h.reads_render.block]
    exact (List.suffix_append _ _).isInfix⟩

theorem stands_call {callee : String} {args : List Code} (h : c ∈ args) (hc : Made scope c) :
    Stands scope c (.call callee args) where
  made := hc
  pieces := (infix_parts h ",").trans
    ⟨[.fixed callee, .fixed "("], [.fixed ")"], by simp [Code.pieces]⟩
  source := ⟨2, by
    have hmem : c.render ∈ Code.renderAll args := by
      rw [Code.renderAll_eq_map]
      exact List.mem_map_of_mem h
    have hsome : (Code.renderAll args).isEmpty = false := List.isEmpty_eq_false_iff_exists_mem.mpr
      ⟨_, hmem⟩
    have hline : Layout.indentTail c.render 2
        <:+: "  ".toList ++ Layout.indentTail c.render 2 ++ ",\n".toList :=
      List.infix_append _ _ _
    show _ <:+: Layout.call callee.toList (Code.renderAll args)
    rw [Layout.call, hsome]
    exact (hline.trans (infix_flatMap hmem fun arg =>
      "  ".toList ++ Layout.indentTail arg 2 ++ ",\n".toList)).trans (List.infix_append _ _ _)⟩

theorem stands_list {items : List Code} (h : c ∈ items) (hc : Made scope c) :
    Stands scope c (.list items) where
  made := hc
  pieces := (infix_parts h ",").trans ⟨[.fixed "["], [.fixed "]"], by simp [Code.pieces]⟩
  source := ⟨2, by
    have hmem : c.render ∈ Code.renderAll items := by
      rw [Code.renderAll_eq_map]
      exact List.mem_map_of_mem h
    have hsome : (Code.renderAll items).isEmpty = false :=
      List.isEmpty_eq_false_iff_exists_mem.mpr ⟨_, hmem⟩
    have hline : Layout.indentTail c.render 2 <:+: Layout.indent c.render 2 ++ ",\n".toList :=
      (Layout.indentTail_infix_indent hc.reads_render.block 2).trans
        (List.prefix_append _ _).isInfix
    show _ <:+: Layout.list (Code.renderAll items)
    rw [Layout.list, hsome]
    exact (hline.trans (infix_flatMap hmem fun item =>
      Layout.indent item 2 ++ ",\n".toList)).trans (List.infix_append _ _ _)⟩

theorem made_of_call {callee : String} {args : List Code} (h : Made scope (.call callee args)) :
    ∀ a ∈ args, Made scope a := by
  cases h with
  | call h => exact h

theorem made_of_list {items : List Code} (h : Made scope (.list items)) :
    ∀ c ∈ items, Made scope c := by
  cases h with
  | list h => exact h

theorem made_of_named {name : String} (h : Made scope (.named name c)) : Made scope c := by
  cases h with
  | named h => exact h

/-- The value of a named argument of a call. -/
theorem stands_argument (name : String) {callee : String} {args : List Code}
    (h : Made scope (.call callee args)) (hc : .named name c ∈ args) : Stands scope c (.call callee args) := by
  have hnamed := made_of_call h _ hc
  exact (stands_named name (made_of_named hnamed)).trans (stands_call hc hnamed)

theorem stands_place {a : Attributes} (h : Made scope (place a c)) : Stands scope c (place a c) := by
  rw [place] at h ⊢
  split at h
  · exact stands_argument "child" h (by simp)
  · exact stands_argument "child" h (by simp)

theorem stands_stack {layers : List Code} (h : Made scope (stack layers)) (hc : c ∈ layers) :
    Stands scope c (stack layers) := by
  have hlist := stands_argument (c := .list layers) "children" h (by simp)
  exact (stands_list hc (made_of_list hlist.made c hc)).trans hlist

theorem stands_container {a : Attributes} {decoration : Option Code}
    (h : Made scope (container a decoration (some c))) :
    Stands scope c (container a decoration (some c)) :=
  stands_argument "child" h (by simp [Code.namedIfAny])

theorem stands_panel {a : Attributes} {children : List Code} (h : Made scope (panel a children))
    (hc : c ∈ children) : Stands scope c (panel a children) := by
  have hsome : children.isEmpty = false := List.isEmpty_eq_false_iff_exists_mem.mpr ⟨c, hc⟩
  rw [panel, hsome] at h ⊢
  have hstack := stands_container h
  exact (stands_stack hstack.made hc).trans hstack

theorem stands_overlay {a : Attributes} {node : Node} (h : Made scope (iconAction a))
    (hnode : node ∈ a.node.children) (hlabel : node.kind = .label) :
    Stands scope (overlayLabel (a.paint "overlayColor") node) (iconAction a) := by
  unfold iconAction
  extract_lets icon button overlays child
  have hmem : overlayLabel (a.paint "overlayColor") node ∈ overlays :=
    List.mem_map_of_mem (List.mem_filter.mpr ⟨hnode, by simpa using hlabel⟩)
  have hsome : overlays.isEmpty = false := List.isEmpty_eq_false_iff_exists_mem.mpr ⟨_, hmem⟩
  have hchild : child = stack (center button :: overlays) := by simp [child, hsome]
  have hstack : Stands scope child _ := stands_container h
  rw [hchild] at hstack ⊢
  exact (stands_stack hstack.made (List.mem_cons_of_mem _ hmem)).trans hstack

theorem mem_lowerAll {node : Node} {children : List Node} (h : node ∈ children)
    (hc : lower node = some c) : c ∈ lowerAll children := by
  induction children with
  | nil => simp at h
  | cons first rest ih =>
      rw [lowerAll, List.mem_append]
      rcases List.mem_cons.mp h with rfl | h
      · exact .inl (by simp [hc])
      · exact .inr (ih h)

end Stands

/-- A widget is what its node is drawn as, a header bar as a panel and a label as an overlay. -/
theorem Drawn.cases_lower {node : Node} {c : Code} (h : Drawn nodes node c) :
    lower node = some c ∨ node.kind = .headerBar ∧ c = lowerAsPanel node
      ∨ node.kind = .label ∧ ∃ color, HasDigits color ∧ c = overlayLabel color node := by
  cases h with
  | top h =>
      rw [topWidget]
      cases hlower : lower node with
      | none => exact .inr (.inl ⟨(lower_eq_none_iff node).mp hlower, rfl⟩)
      | some c => exact .inl rfl
  | inside _ _ _ hc => exact .inl hc
  | overlay _ _ _ hlabel => exact .inr (.inr ⟨hlabel, _, hasDigits_paint _ _, rfl⟩)

theorem Drawn.eq_panel {node : Node} {c : Code} (h : Drawn nodes node c)
    (hpanel : node.kind = .panel ∨ node.kind = .headerBar) :
    ∃ a, c = place a (panel a (lowerAll node.children)) := by
  obtain ⟨kind, id, attrs, children⟩ := node
  rcases h.cases_lower with hlower | ⟨-, rfl⟩ | ⟨hlabel, -⟩
  · rcases hpanel with rfl | rfl
    · exact ⟨_, (Option.some.inj hlower).symm⟩
    · simp [lower] at hlower
  · exact ⟨_, rfl⟩
  · rcases hpanel with rfl | rfl <;> simp at hlabel

theorem Drawn.eq_iconAction {node : Node} {c : Code} (h : Drawn nodes node c)
    (hbutton : node.kind = .iconAction) :
    c = place (Attributes.of node) (iconAction (Attributes.of node)) := by
  obtain ⟨kind, id, attrs, children⟩ := node
  obtain rfl : kind = .iconAction := hbutton
  rcases h.cases_lower with hlower | ⟨hbar, -⟩ | ⟨hlabel, -⟩
  · exact (Option.some.inj hlower).symm
  · simp at hbar
  · simp at hlabel

/-- Each widget of a page stands in its scaffold. -/
theorem Drawn.stands {node : Node} {c : Code} (h : Drawn nodes node c)
    (hscaffold : Made scope (scaffold nodes)) : Stands scope c (scaffold nodes) := by
  induction h with
  | top h =>
      have hbody : Stands scope (stack (body nodes)) (scaffold nodes) :=
        stands_argument "body" hscaffold (by simp)
      exact (stands_stack hbody.made (List.mem_map_of_mem h)).trans hbody
  | inside hparent hpanel h hc ih =>
      obtain ⟨a, rfl⟩ := hparent.eq_panel hpanel
      have hpanel := stands_place ih.made
      exact ((stands_panel hpanel.made (mem_lowerAll h hc)).trans hpanel).trans ih
  | overlay hparent hbutton h hlabel ih =>
      obtain rfl := hparent.eq_iconAction hbutton
      have hbutton := stands_place ih.made
      exact ((stands_overlay hbutton.made h hlabel).trans hbutton).trans ih

/-! ## Pages -/

theorem infix_flatMap_flatMap {α β : Type} {s t : List α} (h : s <:+: t) (f : α → List β) :
    s.flatMap f <:+: t.flatMap f := by
  obtain ⟨before, after, rfl⟩ := h
  exact ⟨before.flatMap f, after.flatMap f, by simp⟩

/-- The scaffold of a page stands in it. -/
theorem scaffold_infix_render (page : PageClass) :
    page.scaffold.tokens <:+: page.tokens
      ∧ Layout.indentTail page.scaffold.render 4 <:+: page.render := by
  have hbuild : page.scaffold.tokens <:+: buildTokens page.scaffold := List.infix_append _ _ _
  have hmethod : Layout.indentTail page.scaffold.render 4 <:+: buildMethod page.scaffold :=
    List.infix_append _ _ _
  unfold PageClass.tokens PageClass.render
  cases page.seeds with
  | none =>
      have hrow : buildTokens page.scaffold
          <:+: statelessTokens page.name.toList (buildTokens page.scaffold) :=
        List.infix_of_mem_flatten (by simp)
      exact ⟨hbuild.trans hrow, hmethod.trans (List.infix_append _ _ _)⟩
  | some seeds =>
      exact ⟨hbuild.trans (List.infix_append _ _ _), hmethod.trans (List.infix_append _ _ _)⟩

/-- **Layout never changes a page.** The source of a page is read as the same tokens as that of its
scaffold without line breaks and indentation. Their brackets match and none leaves its line. Each
widget stands in the source with its lines moved to the right, and among the tokens with those that
it has at any depth. -/
theorem tokens?_assemblePage {pages : List Page} {r : Route} (hr : r ∈ planRoutes pages)
    (nodes : List Node) :
    ∃ ts, tokens? (assemblePage r.className nodes) = some ts
      ∧ tokens? (PageClass.ofNodes r.className nodes).inlineSource = some ts
      ∧ Spelled ts (assemblePage r.className nodes)
      ∧ Nested ts
      ∧ (∀ t ∈ ts, NoBreak t.source)
      ∧ ∀ node c, Drawn nodes node c →
          (∃ n, Layout.indentTail c.render n <:+: assemblePage r.className nodes)
            ∧ c.tokens <:+: ts
            ∧ ∀ n, tokens? (Layout.indentTail c.render n) = some c.tokens := by
  have hname := isClassName_of_mem_planRoutes hr
  have hadmits : ∀ n ∈ Node.preorderAll nodes, Admits .all n := fun n _ => admits_all n
  have hscaffold := made_scaffold hadmits
  obtain ⟨hclosed, hinline⟩ := closed_assemblePage hname hadmits
  have htokens := hclosed.phrase.tokens?
  refine ⟨_, htokens, hinline.phrase.tokens?, spelled_of_tokens? htokens,
    nested_tokens hname hadmits, noBreak_of_tokens? htokens, fun node c hdrawn => ?_⟩
  have hstands := hdrawn.stands hscaffold
  have hreads := hstands.made.reads_render
  obtain ⟨hpage, hsource⟩ := scaffold_infix_render (PageClass.ofNodes r.className nodes)
  refine ⟨?_, (infix_flatMap_flatMap hstands.pieces _).trans hpage,
    fun n => (hreads.indentTail n).phrase.tokens?⟩
  obtain ⟨n, hn⟩ := hstands.source
  have hmoved := Layout.indentTail_infix (hreads.block.indentTail n) hscaffold.reads_render.block
    hn 4
  exact ⟨4 + n, Layout.indentTail_indentTail hreads.block 4 n ▸ hmoved.trans hsource⟩

/-- A label of two lines with quotes. -/
def quotedLabel : Node := ⟨.label, none, [("text", .string "'one'\n'two'")], []⟩

theorem tokens?_assemblePage_quotedLabel :
    let r : Route := ⟨"home", "HomePage"⟩
    let nodes : List Node := [⟨.panel, none, [], [quotedLabel]⟩]
    r ∈ planRoutes [⟨"Home", nodes⟩] ∧ ∃ c ts, Drawn nodes quotedLabel c
      ∧ tokens? (assemblePage r.className nodes) = some ts
      ∧ tokens? (PageClass.ofNodes r.className nodes).inlineSource = some ts
      ∧ (∃ n, Layout.indentTail c.render n <:+: assemblePage r.className nodes)
      ∧ c.tokens <:+: ts := by
  intro r nodes
  have hr : r ∈ planRoutes [⟨"Home", nodes⟩] := by decide +kernel
  have hpanel : Drawn nodes ⟨.panel, none, [], [quotedLabel]⟩ _ := .top List.mem_cons_self
  have hlabel : Drawn nodes quotedLabel _ := .inside hpanel (.inl rfl) (by simp) rfl
  obtain ⟨ts, hts, hinline, -, -, -, hdrawn⟩ := tokens?_assemblePage hr nodes
  obtain ⟨hsource, hinfix, -⟩ := hdrawn _ _ hlabel
  exact ⟨hr, _, ts, hlabel, hts, hinline, hsource, hinfix⟩

end CanvasFlutter
