import CanvasFlutter.Proofs.PageSource.Frame
import CanvasFlutter.Proofs.PageSource.Reading
import CanvasFlutter.Proofs.Widget.Malformed
import CanvasFlutter.Proofs.Widget.Placement

namespace CanvasFlutter

/-!
# `CanvasFlutter.Proofs.PageSource.Placement` — each node of a page has one place

The calls that give a place stand in a page once for each node that is drawn, in document order, and
nowhere else: not in its app bar, its frame or its seeds.

## Contents
- **Scaffolds.** `shows_scaffold`; pages with one source have as much placed on them
  (`length_placedOn_eq`).
- **Pages.** `placedAt_assemblePage`.
-/

open Dart Lexer Widget

variable {nodes : List Node} {before : List Token}

/-! ## Scaffolds -/

theorem isFree_defaultAppBar : IsFree defaultAppBar := by
  simp [defaultAppBar, wordArg, placeNames]

theorem isFree_appBar (header : Node) : IsFree (appBar header) := by
  unfold appBar
  extract_lets titleLabel titleText title fill elevationArg
  have htitle : IsFree title := by
    simp only [title]
    split <;> simp [placeNames]
  have helevation : AllFree elevationArg := by
    simp only [elevationArg]
    split <;> simp [wordArg]
  simp [htitle, helevation, wordArg, placeNames]

theorem shows_topWidget (node : Node) (hbefore : InStack before) :
    Shows (placed .top node) before ((topWidget node).tokens ++ fixed ",") := by
  by_cases hbar : node.kind = .headerBar
  · have hmade : Made .all (panel ⟨node, .panel⟩ (lowerAll node.children)) :=
      made_panel (fun _ => trivial) (made_lowerAll node.children fun n _ => admits_all n)
    rw [topWidget, (lower_eq_none_iff node).mpr hbar, Option.getD_none, placed_eq, Role.placed?,
      if_pos hbar, hbar]
    exact shows_place hmade.nested hbefore
      (shows_panel _ fun _ hbefore => shows_lowerAll node.children hbefore)
  · obtain ⟨c, hc⟩ := Option.ne_none_iff_exists'.mp (mt (lower_eq_none_iff node).mp hbar)
    rw [topWidget, hc, Option.getD_some, placed_top hbar]
    exact shows_lower node hc hbefore

theorem shows_topWidgets (nodes : List Node) (hbefore : InStack before) :
    Shows (placedAll .top nodes) before (rowTokens (nodes.map topWidget)) := by
  induction nodes generalizing before with
  | nil => exact .nil
  | cons node rest ih =>
      have hmade : Made .all (topWidget node) := made_topWidget fun n _ => admits_all n
      exact (shows_topWidget node hbefore).append (ih (hbefore.next hmade.nested))

/-- The scaffold of a page shows what is placed on the page. -/
theorem shows_scaffold (nodes : List Node) (before : List Token) :
    Shows (placedOn nodes) before (scaffold nodes).tokens := by
  have hbody : ∀ before, Shows (placedOn nodes) before (stack (body nodes)).tokens := by
    refine shows_stack fun before hbefore => ?_
    rw [body, withoutHeader_eq_eraseP]
    exact shows_topWidgets _ hbefore
  have hbar : ∀ bar : Code, Made .all bar → IsFree bar → Shows (placedOn nodes) before
      (Code.call "Scaffold" ([.named "appBar" bar] ++ [.named "body" (stack (body nodes))])).tokens := by
    intro bar hmade hfree
    refine shows_call (by simp [callees]) (by decide) (by simp [argumentNames]) ?_ hbody before
    intro arg harg
    obtain rfl := List.mem_singleton.mp harg
    exact (Made.named hmade).onlyIcons hfree
  rw [scaffold]
  split
  · exact hbar _ (made_appBar _) (isFree_appBar _)
  · exact hbar _ made_defaultAppBar isFree_defaultAppBar

/-- Pages that start with the same state and have the same source have as much placed on them. -/
theorem length_placedOn_eq {ms ns : List Node} {name : String} (hseeds : seeds ms = seeds ns)
    (h : assemblePage name ms = assemblePage name ns) :
    (placedOn ms).length = (placedOn ns).length := by
  have hbuild : buildMethod (scaffold ms) = buildMethod (scaffold ns) := by
    rw [assemblePage, assemblePage, PageClass.ofNodes, PageClass.ofNodes, isStateful_congr hseeds,
      hseeds] at h
    cases hstate : isStateful ns with
    | true =>
        rw [hstate] at h
        exact List.append_cancel_left (List.append_cancel_right h)
    | false =>
        rw [hstate] at h
        exact List.append_cancel_left (List.append_cancel_right h)
  have hmade : ∀ nodes, Made .all (scaffold nodes) := fun nodes =>
    made_scaffold fun n _ => admits_all n
  have htokens : ∀ nodes, tokens? (Layout.indentTail (scaffold nodes).render 4)
      = some (scaffold nodes).tokens := fun nodes =>
    ((hmade nodes).reads_render.indentTail 4).phrase.tokens?
  have hsource : Layout.indentTail (scaffold ms).render 4 = Layout.indentTail (scaffold ns).render 4 :=
    List.append_cancel_left (List.append_cancel_right hbuild)
  have heq : (scaffold ms).tokens = (scaffold ns).tokens := by
    have hsome := htokens ms
    rw [hsource, htokens ns] at hsome
    exact (Option.some.inj hsome).symm
  have hms := (shows_scaffold ms []).length_eq
  rw [heq] at hms
  exact hms.trans (shows_scaffold ns []).length_eq.symm

/-! ## Pages -/

theorem onlyIcons_className {name : Text} (hname : IsClassName name) :
    OnlyIcons placeWords (classTokens name) := by
  have hending : ∀ s ∈ placeNames, ¬ "Page".toList <:+ s.toList := by decide
  refine onlyIcons_of_free (hname.forall_tokens (fun w hw hmem => ?_) (by simp [placeWords]))
  obtain ⟨s, hs, heq⟩ := List.mem_map.mp hmem
  exact hending s hs (Token.word.inj heq ▸ hw)

theorem isFree_seed (seed : Seed) : IsFree seed.code := by
  cases seed <;> simp [Seed.code]

/-- A page shows what is placed on it. -/
theorem shows_tokens {name : String} (hname : IsClassName name.toList) (nodes : List Node) :
    Shows (placedOn nodes) [] (PageClass.ofNodes name nodes).tokens := by
  have hfixed : ∀ s ∈ classSources ++ methodSources, ∀ t ∈ fixed s, t ∉ placeWords := by
    decide +kernel
  have hmaps : ∀ m ∈ stateMaps, ∀ t ∈ [Token.word m.toList], t ∉ placeWords := by decide
  have hstate : ∀ t ∈ [Token.word (stateName name.toList)], t ∉ placeWords := by
    simp [stateName, placeWords, placeNames]
  have hadmits : ∀ n ∈ Node.preorderAll nodes, Admits .all n := fun n _ => admits_all n
  have hseeds : ∀ seed ∈ seeds nodes, OnlyIcons placeWords seed.code.tokens := fun seed hseed =>
    (made_seed hadmits hseed).onlyIcons (isFree_seed seed)
  obtain ⟨front, back, hfront, hback, heq⟩ := exists_around_scaffold OnlyIcons.append atEach_nil
    (fun s hs => onlyIcons_of_free (hfixed s hs)) (fun m hm => onlyIcons_of_free (hmaps m hm))
    (onlyIcons_className hname) (onlyIcons_of_free hstate) hseeds
  rw [heq, List.append_assoc]
  exact Shows.after hfront ((shows_scaffold nodes _).then hback)

/-- Two nodes that differ in their offsets at most. -/
def SameButOffset (m n : Node) : Prop :=
  (m.without "top").without "left" = (n.without "top").without "left"

theorem ownText?_without_offset {path : String} (hpath : path ∈ offsetPaths) (node : Node) :
    (Attributes.of (node.without path)).ownText? "alignment"
      = (Attributes.of node).ownText? "alignment" := by
  have hvalue : path ∈ valuePaths := by simp [valuePaths, hpath]
  exact ownText?_without hvalue (by simp [textPaths]) node

theorem ownText?_without_offsets (node : Node) :
    (Attributes.of ((node.without "top").without "left")).ownText? "alignment"
      = (Attributes.of node).ownText? "alignment" := by
  rw [ownText?_without_offset (by simp [offsetPaths]), ownText?_without_offset (by simp [offsetPaths])]

/-- An offset of a node that says how it is aligned may be left out. -/
theorem assemblePage_without_offset (ctx : Context) {node : Node} {path : String}
    (hpath : path ∈ offsetPaths) (haligned : (Attributes.of node).ownText? "alignment" ≠ none)
    (name : String) :
    assemblePage name (ctx.fill (node.without path)) = assemblePage name (ctx.fill node) := by
  have hvalue : path ∈ valuePaths := by simp [valuePaths, hpath]
  apply AlikeOn.assemblePage_eq
  exact ctx.alikeOn (alike_without _ hvalue (.inr ⟨hpath, haligned⟩) fun _ _ honly =>
    haligned honly.unaligned)

theorem assemblePage_without_offsets (ctx : Context) {node : Node}
    (haligned : (Attributes.of node).ownText? "alignment" ≠ none) (name : String) :
    assemblePage name (ctx.fill ((node.without "top").without "left"))
      = assemblePage name (ctx.fill node) := by
  have htop : "top" ∈ offsetPaths := by simp [offsetPaths]
  have hleft : "left" ∈ offsetPaths := by simp [offsetPaths]
  have hkept : (Attributes.of (node.without "top")).ownText? "alignment" ≠ none := by
    rwa [ownText?_without_offset htop]
  rw [assemblePage_without_offset ctx hleft hkept, assemblePage_without_offset ctx htop haligned]

/-- **Each node of a page has one place.** The calls that give a place stand in the source of a page,
in order, one for each node that is placed on it, and each is an item of a stack's children. A node
that says how it is aligned may have any offset. -/
theorem placedAt_assemblePage {pages : List Page} {r : Route} (hr : r ∈ planRoutes pages)
    (nodes : List Node) :
    (∃ ts, tokens? (assemblePage r.className nodes) = some ts
        ∧ List.Forall₂ PlacedAt (placedOn nodes) (sites [] ts))
      ∧ ∀ (ctx : Context) (m n : Node), SameButOffset m n →
        (Attributes.of m).ownText? "alignment" ≠ none →
        assemblePage r.className (ctx.fill m) = assemblePage r.className (ctx.fill n) := by
  have hname := isClassName_of_mem_planRoutes hr
  constructor
  · have hadmits : ∀ n ∈ Node.preorderAll nodes, Admits .all n := fun n _ => admits_all n
    exact ⟨_, (closed_assemblePage hname hadmits).1.phrase.tokens?, shows_tokens hname nodes⟩
  · intro ctx m n hsame haligned
    have hm := assemblePage_without_offsets ctx haligned r.className
    rw [← ownText?_without_offsets m, hsame, ownText?_without_offsets n] at haligned
    rw [← hm, hsame]
    exact assemblePage_without_offsets ctx haligned r.className

/-- A label that says how it is aligned, with whatever offset. -/
def lowLabel (offset : List (String × Json)) : Node :=
  ⟨.label, none, ("alignment", .string "bottom center") :: offset, []⟩

/-- A button with two labels in it, of which the first says where it stands. -/
def markedButton : Node :=
  ⟨.iconAction, none, [("top", .string "12")],
    [⟨.label, none, [("left", .number (.int 4))], []⟩, labelOf "x"]⟩

theorem placedAt_assemblePage_markedButton :
    (⟨"home", "HomePage"⟩ : Route) ∈ planRoutes [⟨"Home", [markedButton, lowLabel []]⟩]
      ∧ (∃ ts, tokens? (assemblePage "HomePage" [markedButton, lowLabel []]) = some ts
        ∧ List.Forall₂ PlacedAt (placedOn [markedButton, lowLabel []]) (sites [] ts))
      ∧ SameButOffset (lowLabel []) (lowLabel [("left", .number (.int 4))])
      ∧ (Attributes.of (lowLabel [])).ownText? "alignment" ≠ none
      ∧ assemblePage "HomePage" [markedButton, lowLabel []]
        = assemblePage "HomePage" [markedButton, lowLabel [("left", .number (.int 4))]] := by
  have hr : (⟨"home", "HomePage"⟩ : Route) ∈ planRoutes [⟨"Home", [markedButton, lowLabel []]⟩] := by
    decide
  have hsame : SameButOffset (lowLabel []) (lowLabel [("left", .number (.int 4))]) := rfl
  have haligned : (Attributes.of (lowLabel [])).ownText? "alignment" ≠ none := by decide
  obtain ⟨hplaced, hoffset⟩ := placedAt_assemblePage hr [markedButton, lowLabel []]
  exact ⟨hr, hplaced, hsame, haligned, hoffset (.top [markedButton] []) _ _ hsame haligned⟩

end CanvasFlutter
