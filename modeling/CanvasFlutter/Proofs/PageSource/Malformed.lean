import CanvasFlutter.Proofs.PageSource.Placement

namespace CanvasFlutter

/-!
# `CanvasFlutter.Proofs.PageSource.Malformed` — a malformed field of a node of a page

A field that is refused where it is read may be left out of its node, and the page stays as it is.
The one field that may not is the offset by which alone a label over a button says where it stands:
refused or not, it makes the label a positioned one.

## Contents
- **Anchors.** What the label loses with it (`length_placed_without`).
- **Pages.** `assemblePage_without`, and `assemblePage_without_iff`: when the page stays as it is.
-/

open Widget

variable {node : Node} {path : String}

/-! ## Anchors -/

/-- A label over a button has no place of its own without its only anchor. -/
theorem length_placed_without (hlabel : node.kind = .label) (honly : IsOnlyAnchor node path)
    (hpath : path ∈ valuePaths) :
    (placed .overlay node).length = (placed .overlay (node.without path)).length + 1 := by
  obtain ⟨hanchored, hlost⟩ := (isOnlyAnchor_iff hpath).mp honly
  rw [placed_overlay, placed_overlay, if_pos ⟨hlabel, hanchored⟩, if_neg]
  · rfl
  · rw [hlost]
    simp

/-! ## Pages -/

theorem assemblePage_without (ctx : Context) (h : IsMalformed node path)
    (hanchor : ctx.role node.kind = .overlay → node.kind = .label → ¬ IsOnlyAnchor node path)
    (name : String) :
    assemblePage name (ctx.fill (node.without path)) = assemblePage name (ctx.fill node) :=
  (ctx.alikeOn (alike_without _ h.mem_valuePaths (.inl h) hanchor)).assemblePage_eq name

/-- A malformed field of any node of a page but a label may be left out where the node stands. -/
theorem exists_assemblePage_without {nodes : List Node} (hnode : node ∈ Node.preorderAll nodes)
    (h : IsMalformed node path) (hlabel : node.kind ≠ .label) (name : String) :
    ∃ ctx : Context, ctx.fill node = nodes ∧
      assemblePage name (ctx.fill (node.without path)) = assemblePage name nodes := by
  obtain ⟨ctx, rfl⟩ := Context.exists_fill hnode
  exact ⟨ctx, rfl, assemblePage_without ctx h (fun _ hkind => absurd hkind hlabel) name⟩

/-- **A malformed field counts as a missing one**, wherever its node stands in the page, unless it is
the only anchor of a label over a button. -/
theorem assemblePage_without_iff (ctx : Context) (h : IsMalformed node path) (name : String) :
    assemblePage name (ctx.fill (node.without path)) = assemblePage name (ctx.fill node)
      ↔ ¬ (ctx.role node.kind = .overlay ∧ node.kind = .label ∧ IsOnlyAnchor node path) := by
  have hpath := h.mem_valuePaths
  constructor
  · -- The page draws one widget less in a place of its own.
    rintro heq ⟨hrole, hlabel, honly⟩
    have hhidden : Alike .hidden (node.without path) node :=
      alike_without .hidden hpath (.inl h) (by simp)
    have hseeds := (ctx.alikeAll_fill hhidden).seeds_eq
    have hlength := length_placedOn_eq hseeds heq
    obtain ⟨others, hothers⟩ := ctx.exists_length_placedOn node.kind
    rw [hothers node rfl, hothers (node.without path) rfl, hrole,
      length_placed_without hlabel honly hpath] at hlength
    omega
  · intro hanchor
    exact assemblePage_without ctx h (fun hrole hlabel honly => hanchor ⟨hrole, hlabel, honly⟩) name

/-- A label with one attribute. -/
def markedLabel (path : String) (value : Json) : Node := ⟨.label, none, [(path, value)], []⟩

/-- A button with one node in it. -/
def Context.inButton : Context := .inside (.top [] []) .iconAction none [] [] []

/-- Where the label would be in the middle of the button, text that is no number puts it at the
corner; a colour that is none changes nothing. -/
theorem assemblePage_without_iff_inButton :
    IsMalformed (markedLabel "top" (.string "abc")) "top"
      ∧ IsMalformed (markedLabel "color" (.string "red")) "color"
      ∧ assemblePage "HomePage"
          [⟨.iconAction, none, [], [(markedLabel "top" (.string "abc")).without "top"]⟩]
        ≠ assemblePage "HomePage"
          [⟨.iconAction, none, [], [markedLabel "top" (.string "abc")]⟩]
      ∧ assemblePage "HomePage"
          [⟨.iconAction, none, [], [(markedLabel "color" (.string "red")).without "color"]⟩]
        = assemblePage "HomePage"
          [⟨.iconAction, none, [], [markedLabel "color" (.string "red")]⟩] := by
  have htop : IsMalformed (markedLabel "top" (.string "abc")) "top" := by
    refine ⟨by decide, .inl ⟨by simp [offsetPaths], ?_⟩⟩
    exact Option.isNone_iff_eq_none.mp (by decide)
  have hcolor : IsMalformed (markedLabel "color" (.string "red")) "color" := by
    refine ⟨by decide, .inr (.inr ⟨by simp [paintPaths], ?_⟩)⟩
    exact Option.isNone_iff_eq_none.mp (by decide)
  have honly : IsOnlyAnchor (markedLabel "top" (.string "abc")) "top" :=
    ⟨by decide, by simp [offsetPaths], by decide, by decide⟩
  refine ⟨htop, hcolor, fun heq => ?_, ?_⟩
  · exact (assemblePage_without_iff .inButton htop "HomePage").mp heq ⟨rfl, rfl, honly⟩
  · refine (assemblePage_without_iff .inButton hcolor "HomePage").mpr ?_
    rintro ⟨-, -, honly⟩
    exact absurd honly.offset (by simp [offsetPaths])

end CanvasFlutter
