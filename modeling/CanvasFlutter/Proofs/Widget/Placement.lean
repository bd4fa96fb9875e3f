import CanvasFlutter.Proofs.Widget.Free
import CanvasFlutter.Proofs.Widget.Lower
import CanvasFlutter.Proofs.Widget.Role
import Mathlib.Data.List.Forall2

namespace CanvasFlutter.Widget

/-!
# `CanvasFlutter.Proofs.Widget.Placement` — every widget has one place

Among the tokens of a forest the two calls that give a place stand once for each node that is placed,
in document order, and each of them is an item of the children of a stack.

## Contents
- **Sites.** `sites`, where the two calls stand; `sites_append`, `sites_eq_nil`.
- **Placements.** What a node asks for (`Placement`), and a site where it gets that (`PlacedAt`).
- **Widgets.** `shows_place`, `shows_stack`, and what holds other widgets: `shows_iconAction`,
  `shows_panel`.
- **Forests.** `shows_lower`, `shows_lowerAll`.
-/

open CanvasFlutter.Dart Lexer

/-! ## Sites -/

/-- Where a call stands: the tokens before it, and those that begin with it. -/
structure Site where
  before : List Token
  rest : List Token

/-- A site with more tokens behind it. -/
def Site.extend (s : Site) (after : List Token) : Site := ⟨s.before, s.rest ++ after⟩

/-- The calls that give a place, in order, given what stands before. The name of an icon is no
call. -/
def sites (before : List Token) : List Token → List Site
  | [] => []
  | t :: ts =>
      (if t ∈ placeWords ∧ ¬ iconPrefix <:+ before then [⟨before, t :: ts⟩] else [])
        ++ sites (before ++ [t]) ts

theorem sites_append (before ts us : List Token) :
    sites before (ts ++ us) = (sites before ts).map (·.extend us) ++ sites (before ++ ts) us := by
  induction ts generalizing before with
  | nil => simp [sites]
  | cons t ts ih =>
      rw [List.cons_append, sites, sites, ih, List.map_append, List.append_assoc, List.append_assoc,
        List.singleton_append]
      congr 1
      split <;> rfl

/-- Names of icons are no sites, whatever stands before. -/
theorem sites_eq_nil {ts : List Token} (h : OnlyIcons placeWords ts) (before : List Token) :
    sites before ts = [] := by
  have hgo : ∀ seen ts, OnlyIcons placeWords (seen ++ ts) → sites (before ++ seen) ts = [] := by
    intro seen ts
    induction ts generalizing seen with
    | nil => exact fun _ => rfl
    | cons t ts ih =>
        intro h
        have hicon : ¬ (t ∈ placeWords ∧ ¬ iconPrefix <:+ before ++ seen) := fun ⟨hword, hno⟩ =>
          hno ((h seen t ts rfl hword).trans (List.suffix_append _ _))
        rw [sites, if_neg hicon, List.nil_append, List.append_assoc]
        exact ih (seen ++ [t]) (by simpa using h)
  simpa using hgo [] ts h

/-! ## Placements -/

/-- What a widget is placed by. -/
inductive Placement where
  | aligned (alignment : String)
  | offset (top left : Float)

/-- What the attributes ask for: an alignment, or else an offset. -/
def Placement.of (a : Attributes) : Placement :=
  match a.ownText? "alignment" with
  | some raw => .aligned (Name.alignment raw.toList)
  | none => .offset (a.number "top") (a.number "left")

/-- The tokens of the call, up to the widget. -/
def Placement.tokens : Placement → List Token
  | .aligned alignment => fixed "Align(alignment:" ++ fixed alignment ++ fixed ", child:"
  | .offset top left =>
      fixed "Positioned(top:" ++ lexed (Literal.number top) ++ fixed ", left:"
        ++ lexed (Literal.number left) ++ fixed ", child:"

/-- What stands before an item of a stack's children, each item with a comma behind it. -/
def InStack (before : List Token) : Prop :=
  ∃ (front : List Token) (items : List (List Token)), before = front ++ fixed "Stack(children: [" ++ items.flatMap (· ++ fixed ",")
    ∧ ∀ item ∈ items, Nested item

/-- A site where attributes get the place that they ask for: the call is one whole item of a stack's
children. -/
structure PlacedAt (a : Attributes) (s : Site) : Prop where
  inStack : InStack s.before
  call : ∃ widget after, Nested widget
    ∧ s.rest = (Placement.of a).tokens ++ widget ++ fixed ",)," ++ after

variable {scope : Scope} {a : Attributes} {as bs : List Attributes} {before ts us : List Token}
  {c : Code}

/-- The sites in these tokens are one for each of the attributes, in order. -/
def Shows (as : List Attributes) (before ts : List Token) : Prop :=
  List.Forall₂ PlacedAt as (sites before ts)

theorem PlacedAt.extend {s : Site} (h : PlacedAt a s) (after : List Token) :
    PlacedAt a (s.extend after) := by
  obtain ⟨widget, rest, hnested, heq⟩ := h.call
  refine ⟨h.inStack, widget, rest ++ after, hnested, ?_⟩
  rw [Site.extend, heq, List.append_assoc]

theorem Shows.append (h : Shows as before ts) (h' : Shows bs (before ++ ts) us) :
    Shows (as ++ bs) before (ts ++ us) := by
  rw [Shows, sites_append]
  refine List.rel_append ?_ h'
  rw [List.forall₂_map_right_iff]
  exact h.imp fun _ _ hplaced => hplaced.extend us

theorem shows_nil (h : OnlyIcons placeWords ts) (before : List Token) : Shows [] before ts := by
  rw [Shows, sites_eq_nil h]
  exact .nil

/-- Nothing is placed on the left of these tokens. -/
theorem Shows.after (hts : OnlyIcons placeWords ts) (h : Shows as (before ++ ts) us) :
    Shows as before (ts ++ us) := (shows_nil hts before).append h

/-- Nothing is placed on their right. -/
theorem Shows.then (h : Shows as before ts) (hus : OnlyIcons placeWords us) :
    Shows as before (ts ++ us) := by
  simpa using h.append (shows_nil hus _)

theorem inStack_open (front : List Token) : InStack (front ++ fixed "Stack(children: [") :=
  ⟨front, [], by simp, by simp⟩

theorem InStack.next (h : InStack before) (hts : Nested ts) :
    InStack (before ++ (ts ++ fixed ",")) := by
  obtain ⟨front, items, rfl, hitems⟩ := h
  refine ⟨front, items ++ [ts], by simp, ?_⟩
  simpa [or_imp, forall_and] using ⟨hitems, hts⟩

/-- An item of a stack's children is no name of an icon. -/
theorem InStack.not_icon (h : InStack before) : ¬ iconPrefix <:+ before := by
  have hlast : ∃ init t, before = init ++ [t] ∧ t ≠ .mark ['.'] := by
    obtain ⟨front, items, rfl, -⟩ := h
    rcases List.eq_nil_or_concat items with rfl | ⟨items, item, rfl⟩
    · have hopen : fixed "Stack(children: [" = fixed "Stack(children:" ++ [.mark ['[']] := by
        decide
      exact ⟨front ++ fixed "Stack(children:", .mark ['['], by simp [hopen], by decide⟩
    · have hcomma : fixed "," = [.mark [',']] := by decide
      exact ⟨front ++ fixed "Stack(children: [" ++ items.flatMap (· ++ fixed ",") ++ item,
        .mark [','], by simp [hcomma], by decide⟩
  obtain ⟨init, t, rfl, ht⟩ := hlast
  rintro ⟨left, heq⟩
  have hicon : left ++ iconPrefix = left ++ [.word "Icons".toList] ++ [.mark ['.']] := by
    simp [iconPrefix]
  rw [hicon] at heq
  exact ht (List.singleton_inj.mp (List.append_inj' heq rfl).2).symm

/-! ## Widgets -/

/-- The tokens of arguments or items, each with a comma behind it. -/
def rowTokens (cs : List Code) : List Token := cs.flatMap fun c => c.tokens ++ fixed ","

theorem tokens_parts (cs : List Code) :
    (Piece.parts "," (Code.piecesAll cs)).flatMap Piece.tokens = rowTokens cs := by
  rw [Code.piecesAll_eq_map, Piece.parts, rowTokens, List.flatMap_map, List.flatMap_assoc]
  simp [Code.tokens, Piece.tokens]

theorem tokens_named (name : String) (c : Code) :
    (Code.named name c).tokens = fixed name ++ fixed ":" ++ c.tokens := by
  simp [Code.tokens, Code.pieces, Piece.tokens]

theorem tokens_list (items : List Code) :
    (Code.list items).tokens = fixed "[" ++ rowTokens items ++ fixed "]" := by
  simp [Code.tokens, Code.pieces, Piece.tokens, ← tokens_parts]

theorem tokens_call (callee : String) (args : List Code) :
    (Code.call callee args).tokens
      = fixed callee ++ fixed "(" ++ rowTokens args ++ fixed ")" := by
  simp [Code.tokens, Code.pieces, Piece.tokens, ← tokens_parts]

/-- The tokens of a stack. -/
theorem tokens_stack (layers : List Code) :
    (stack layers).tokens
      = fixed "Stack(children: [" ++ rowTokens layers ++ fixed "],)" := by
  have hopen : fixed "Stack(children: ["
      = fixed "Stack" ++ fixed "(" ++ (fixed "children" ++ fixed ":" ++ fixed "[") := by
    decide
  have hclose : fixed "],)" = fixed "]" ++ fixed "," ++ fixed ")" := by decide
  rw [stack, tokens_call, rowTokens, List.flatMap_singleton, tokens_named, tokens_list, hopen, hclose]
  simp only [List.append_assoc]

/-- The tokens of a widget in its place. -/
theorem tokens_place (a : Attributes) (widget : Code) :
    (place a widget).tokens = (Placement.of a).tokens ++ widget.tokens ++ fixed ",)" := by
  have haligned : fixed "Align(alignment:" = fixed "Align" ++ fixed "(" ++ fixed "alignment"
      ++ fixed ":" := by decide
  have hpositioned : fixed "Positioned(top:" = fixed "Positioned" ++ fixed "(" ++ fixed "top"
      ++ fixed ":" := by decide
  have hleft : fixed ", left:" = fixed "," ++ fixed "left" ++ fixed ":" := by decide
  have hchild : fixed ", child:" = fixed "," ++ fixed "child" ++ fixed ":" := by decide
  have hclose : fixed ",)" = fixed "," ++ fixed ")" := by decide
  rw [place, Placement.of, hclose]
  cases a.ownText? "alignment" with
  | some raw =>
      simp only [Placement.tokens, haligned, hchild, tokens_call, rowTokens, wordArg, tokens_named,
        List.flatMap_cons, List.flatMap_nil, List.append_assoc, List.append_nil]
      simp [Code.tokens, Code.pieces, Piece.tokens]
  | none =>
      simp only [Placement.tokens, hpositioned, hleft, hchild, tokens_call, rowTokens, numberArg,
        tokens_named, List.flatMap_cons, List.flatMap_nil, List.append_assoc, List.append_nil]
      simp [Code.tokens, Code.pieces, Piece.tokens]

/-- A placement begins with the name of its call, and names neither again. -/
theorem exists_tokens_placement (a : Attributes) :
    ∃ t ts, (Placement.of a).tokens = t :: ts ∧ t ∈ placeWords ∧ OnlyIcons placeWords ts := by
  have hchild : OnlyIcons placeWords (fixed ", child:") := onlyIcons_of_free (by decide)
  have hnumber : ∀ x, OnlyIcons placeWords (lexed (Literal.number x)) := fun x =>
    onlyIcons_of_free (free_number (by decide) (by simp [placeWords]) x)
  rw [Placement.of]
  cases a.ownText? "alignment" with
  | some raw =>
      have hopen : fixed "Align(alignment:" = .word "Align".toList :: fixed "(alignment:" := by
        decide
      have hwords : ∀ s ∈ words, s ∈ "setState" :: fixedSources ∧ s ∉ placeNames := by
        decide
      have hword := hwords _ (alignment_mem raw.toList)
      refine ⟨_, _, by rw [Placement.tokens, hopen, List.cons_append, List.cons_append],
        by decide, ?_⟩
      exact ((onlyIcons_of_free (by decide)).append _ _
        (onlyIcons_fixed _ hword.1 hword.2)).append _ _ hchild
  | none =>
      have hopen : fixed "Positioned(top:" = .word "Positioned".toList :: fixed "(top:" := by
        decide
      refine ⟨_, _, by simp only [Placement.tokens, hopen, List.cons_append]; rfl, by decide, ?_⟩
      exact ((((onlyIcons_of_free (by decide)).append _ _ (hnumber _)).append _ _
        (onlyIcons_of_free (by decide))).append _ _ (hnumber _)).append _ _ hchild

/-- **A widget is placed at its call**, and then what is placed in it. -/
theorem shows_place {widget : Code} (hnested : Nested widget.tokens) (hbefore : InStack before)
    (h : ∀ before, Shows as before widget.tokens) :
    Shows (a :: as) before ((place a widget).tokens ++ fixed ",") := by
  obtain ⟨t, ts, heq, ht, hts⟩ := exists_tokens_placement a
  have hclose : fixed ",)," = fixed ",)" ++ fixed "," := by decide
  have hcall : (place a widget).tokens ++ fixed ","
      = t :: (ts ++ (widget.tokens ++ fixed ",),")) := by
    rw [tokens_place, heq, hclose]
    simp only [List.cons_append, List.append_assoc]
  rw [Shows, hcall, sites, if_pos ⟨ht, hbefore.not_icon⟩, List.singleton_append]
  refine .cons ⟨hbefore, widget.tokens, [], hnested, ?_⟩ ?_
  · rw [heq, List.append_nil]
    simp only [List.cons_append, List.append_assoc]
  · exact Shows.after hts ((h _).then (onlyIcons_of_free (by decide)))

theorem Made.shows_nil (h : Made scope c) (hfree : IsFree c) (before : List Token) :
    Shows [] before c.tokens :=
  Widget.shows_nil (h.onlyIcons hfree) before

/-- A widget that holds no other one. -/
theorem shows_leaf {widget : Code} (h : Made scope widget) (hfree : IsFree widget)
    (hbefore : InStack before) : Shows [a] before ((place a widget).tokens ++ fixed ",") :=
  shows_place h.nested hbefore (h.shows_nil hfree)

theorem onlyIcons_row {cs : List Code} (h : ∀ c ∈ cs, OnlyIcons placeWords c.tokens) :
    OnlyIcons placeWords (rowTokens cs) :=
  atEach_flatMap (stable_onlyIcons placeWords) fun c hc =>
    (h c hc).append _ _ (onlyIcons_of_free (by decide))

/-- A call whose last argument shows what is placed. -/
theorem shows_call {callee name : String} {args : List Code} (hcallee : callee ∈ callees)
    (hplace : callee ∉ placeNames) (hname : name ∈ argumentNames)
    (hargs : ∀ arg ∈ args, OnlyIcons placeWords arg.tokens)
    (h : ∀ before, Shows as before c.tokens) (before : List Token) :
    Shows as before (Code.call callee (args ++ [.named name c])).tokens := by
  have hnames : ∀ s ∈ argumentNames, s ∉ placeNames := by decide
  have hcallee := onlyIcons_fixed callee (by simp [fixedSources, hcallee]) hplace
  have hname := onlyIcons_fixed name (by simp [fixedSources, hname]) (hnames _ hname)
  have hsign : ∀ s ∈ ["(", ":", ",", ")"], OnlyIcons placeWords (fixed s) := fun s hs =>
    onlyIcons_of_free ((by decide : ∀ s ∈ ["(", ":", ",", ")"], ∀ t ∈ fixed s, t ∉ placeWords) s hs)
  simp only [List.forall_mem_cons] at hsign
  obtain ⟨hopen, hcolon, hcomma, hclose, -⟩ := hsign
  have hfront := ((((hcallee.append _ _ hopen).append _ _ (onlyIcons_row hargs)).append _ _
    hname).append _ _ hcolon)
  have hshows := Shows.after hfront ((h (before ++ _)).then (hcomma.append _ _ hclose))
  rw [tokens_call, rowTokens, List.flatMap_append, List.flatMap_singleton, tokens_named]
  rw [rowTokens] at hshows
  simpa only [List.append_assoc] using hshows

/-- A stack shows what its layers show. -/
theorem shows_stack {layers : List Code}
    (h : ∀ before, InStack before → Shows as before (rowTokens layers)) (before : List Token) :
    Shows as before (stack layers).tokens := by
  rw [tokens_stack, List.append_assoc]
  refine Shows.after (onlyIcons_of_free (by decide)) ?_
  exact (h _ (inStack_open before)).then (onlyIcons_of_free (by decide))

/-- A box shows what is in it. -/
theorem shows_container (a : Attributes) (h : ∀ before, Shows as before c.tokens)
    (before : List Token) :
    Shows as before (container a (boxDecoration? a) (some c)).tokens := by
  have hnumbers : AdmitsNumbers .all a := fun _ => trivial
  have hargs : ∀ arg ∈ sizeArgs a ++ Code.namedIfAny "decoration" (boxDecoration? a),
      OnlyIcons placeWords arg.tokens := by
    intro arg harg
    have hmade : Made .all arg := List.forall_mem_append.mpr
      ⟨made_sizeArgs hnumbers, made_namedIfAny (made_boxDecoration? hnumbers)⟩ arg harg
    have hfree : AllFree (sizeArgs a ++ Code.namedIfAny "decoration" (boxDecoration? a)) := by
      rw [allFree_append, allFree_namedIfAny]
      exact ⟨allFree_sizeArgs a, isFree_boxDecoration? a⟩
    exact hmade.onlyIcons ((allFree_iff _).mp hfree arg harg)
  exact shows_call (by simp [callees]) (by decide) (by simp [argumentNames]) hargs h before

/-- A label over a button. -/
theorem shows_overlayLabel {color : Paint} (hcolor : HasDigits color) (child : Node)
    (hbefore : InStack before) :
    Shows (if isAnchored child = true then [.of child] else []) before
      ((overlayLabel color child).tokens ++ fixed ",") := by
  have hmade : Made .all (overlayText color child) := made_overlayText hcolor fun _ => trivial
  have hfree : IsFree (overlayText color child) := isFree_textWidget _ _ (by simp)
  have heq : overlayLabel color child = if isAnchored child = true then
      place (.of child) (overlayText color child) else center (overlayText color child) := rfl
  rw [heq]
  split
  · exact shows_leaf hmade hfree hbefore
  · have hcenter : IsFree (center (overlayText color child)) := by
      simpa [center, placeNames] using hfree
    exact ((made_center hmade).shows_nil hcenter before).then (onlyIcons_of_free (by decide))

/-- The labels over a button are placed in order, those that say where. -/
theorem shows_overlays {color : Paint} (hcolor : HasDigits color) (children : List Node)
    (hbefore : InStack before) :
    Shows (placedAll .overlay children) before
      (rowTokens ((children.filter (·.kind = .label)).map (overlayLabel color))) := by
  induction children generalizing before with
  | nil => exact .nil
  | cons child rest ih =>
      rw [placedAll, placed_overlay, List.filter_cons]
      by_cases hlabel : child.kind = .label
      · have hmade : Made .all (overlayLabel color child) := made_overlayLabel hcolor fun _ => trivial
        have hchild := shows_overlayLabel hcolor child hbefore
        simp only [hlabel, true_and, decide_true, if_true, List.map_cons, rowTokens,
          List.flatMap_cons]
        exact hchild.append (ih (hbefore.next hmade.nested))
      · rw [if_neg fun h => hlabel h.1, if_neg (by simpa using hlabel), List.nil_append]
        exact ih hbefore

theorem Shows.eq_nil (h : Shows as before []) : as = [] := by
  cases h
  rfl

/-- A button shows the labels over it. -/
theorem shows_iconAction (a : Attributes) (before : List Token) :
    Shows (placedAll .overlay a.node.children) before (iconAction a).tokens := by
  have hmade : Made .all (iconButton a) := made_iconButton fun _ => trivial
  have hfree : IsFree (iconButton a) := by
    simp [iconButton, isFree_navigate, numberArg, placeNames]
  have hoverlays : ∀ before, InStack before →
      Shows (placedAll .overlay a.node.children) before (rowTokens (overlays a)) :=
    fun _ => shows_overlays (hasDigits_paint a _) a.node.children
  rw [iconAction_eq]
  refine shows_container a (fun before => ?_) before
  split
  · next hempty =>
      have hnothing := hoverlays _ (inStack_open [])
      rw [List.isEmpty_iff.mp hempty] at hnothing
      rw [hnothing.eq_nil]
      exact hmade.shows_nil hfree before
  · refine shows_stack (fun before hbefore => ?_) before
    have hcenter := made_center hmade
    have hfirst := hcenter.onlyIcons (by simpa [center, placeNames] using hfree)
    rw [rowTokens, List.flatMap_cons]
    exact Shows.after (hfirst.append _ _ (onlyIcons_of_free (by decide)))
      (hoverlays _ (hbefore.next hcenter.nested))

/-- A panel shows what is in it. -/
theorem shows_panel (a : Attributes) {children : List Code}
    (h : ∀ before, InStack before → Shows as before (rowTokens children)) (before : List Token) :
    Shows as before (panel a children).tokens := by
  rw [panel]
  split
  · next hempty =>
      have hnothing := h _ (inStack_open [])
      rw [List.isEmpty_iff.mp hempty] at hnothing
      have hmade : Made .all (container a (boxDecoration? a) none) :=
        made_container (fun _ => trivial) (made_boxDecoration? fun _ => trivial) (by simp)
      rw [hnothing.eq_nil]
      exact hmade.shows_nil (isFree_container a (by simp)) before
  · exact shows_container a (shows_stack h) before

/-! ## Forests -/

theorem placed_inner_leaf {node : Node} (hbar : node.kind ≠ .headerBar)
    (hbelow : Role.below .inner node.kind = .hidden) : placed .inner node = [.of node] := by
  rw [placed_of_below_hidden hbelow, Role.placed?, if_neg hbar]
  rfl

mutual

/-- **The widget of a node shows what is placed for it**, in document order. -/
theorem shows_lower (node : Node) {c : Code} (hc : lower node = some c) {before : List Token}
    (hbefore : InStack before) :
    Shows (placed .inner node) before (c.tokens ++ fixed ",") := by
  obtain ⟨kind, id, attrs, children⟩ := node
  have hnumbers : ∀ a : Attributes, AdmitsNumbers .all a := fun _ _ => trivial
  have hnode := admits_all ⟨kind, id, attrs, children⟩
  cases kind with
  | headerBar => simp [lower] at hc
  | label =>
      obtain rfl := Option.some.inj hc
      rw [placed_inner_leaf (by simp) rfl]
      exact shows_leaf (made_label (hnumbers _)) (isFree_label _) hbefore
  | iconAction =>
      obtain rfl := Option.some.inj hc
      have hmade : ∀ a, Made .all (iconAction a) := fun a =>
        made_iconAction (hnumbers a) fun _ _ => hnumbers _
      exact shows_place (hmade _).nested hbefore
        (shows_iconAction (.of ⟨.iconAction, id, attrs, children⟩))
  | textAction =>
      obtain rfl := Option.some.inj hc
      rw [placed_inner_leaf (by simp) rfl]
      exact shows_leaf (made_textAction (hnumbers _)) (isFree_textAction _) hbefore
  | textInput =>
      obtain rfl := Option.some.inj hc
      rw [placed_inner_leaf (by simp) rfl]
      exact shows_leaf (made_textInput (hnumbers _) hnode.maxLength) (isFree_textInput _) hbefore
  | toggleBox =>
      obtain rfl := Option.some.inj hc
      rw [placed_inner_leaf (by simp) rfl]
      exact shows_leaf (made_toggleBox (hnumbers _) hnode.tickSize trivial trivial)
        (isFree_toggleBox _) hbefore
  | choiceDropdown =>
      obtain rfl := Option.some.inj hc
      rw [placed_inner_leaf (by simp) rfl]
      exact shows_leaf (made_choiceDropdown (hnumbers _) trivial trivial) (isFree_choiceDropdown _)
        hbefore
  | panel =>
      obtain rfl := Option.some.inj hc
      have hchildren : ∀ c ∈ lowerAll children, Made .all c :=
        made_lowerAll children fun n _ => admits_all n
      exact shows_place (made_panel (hnumbers _) hchildren).nested hbefore
        (shows_panel _ fun _ hbefore => shows_lowerAll children hbefore)
  | unknown tag =>
      obtain rfl := Option.some.inj hc
      rw [placed_inner_leaf (by simp) rfl]
      exact shows_leaf (made_container (hnumbers _) (made_boxDecoration? (hnumbers _)) (by simp))
        (isFree_container _ (by simp)) hbefore

theorem shows_lowerAll (nodes : List Node) {before : List Token} (hbefore : InStack before) :
    Shows (placedAll .inner nodes) before (rowTokens (lowerAll nodes)) := by
  cases nodes with
  | nil => exact .nil
  | cons node rest =>
      rw [placedAll, lowerAll]
      cases hlower : lower node with
      | none =>
          rw [placed_inner_of_headerBar ((lower_eq_none_iff node).mp hlower)]
          exact shows_lowerAll rest hbefore
      | some c =>
          have hmade : Made .all c := made_lower node (fun n _ => admits_all n) c hlower
          exact (shows_lower node hlower hbefore).append
            (shows_lowerAll rest (hbefore.next hmade.nested))

end

end CanvasFlutter.Widget
