import CanvasFlutter.Proofs.Canvas.Without
import CanvasFlutter.Proofs.Widget.Reading

namespace CanvasFlutter.Widget

/-!
# `CanvasFlutter.Proofs.Widget.Malformed` — attributes that count as missing

A number, a truth value or a colour that is refused where it is read is read as a missing one would
be. There is one place where it is not read but only looked for: a label over a button says where it
stands by having an offset at all.

## Contents
- **Paths.** `valuePaths`; no path of a value leads on from another path (`apart_of_ne`).
- **Values.** `IsMalformed`; `readAlike_without`.
- **Anchors.** `IsOnlyAnchor`, `isOnlyAnchor_iff`; `alike_without`.
-/

variable {node : Node} {path other : String}

/-! ## Paths -/

/-- Where numbers, truth values and colours are read. -/
def valuePaths : List String := offsetPaths ++ numberPaths ++ flagPaths ++ paintPaths

/-- Where anything is read. -/
def readPaths : List String := valuePaths ++ textPaths ++ ["options"]

theorem apart_of_ne : ∀ p ∈ valuePaths, ∀ q ∈ readPaths, q ≠ p →
    Node.Apart (Node.pathParts p) (Node.pathParts q) := by decide +kernel

theorem attr?_without_ne (hpath : path ∈ valuePaths) (hother : other ∈ readPaths)
    (hne : other ≠ path) (node : Node) : (node.without path).attr? other = node.attr? other :=
  Node.attr?_without (apart_of_ne path hpath other hother hne) node

/-! ## Values -/

/-- Whether the attribute at a path is there, and refused by what reads it. -/
def IsMalformed (node : Node) (path : String) : Prop :=
  node.hasAttr path = true
    ∧ (path ∈ offsetPaths ++ numberPaths ∧ node.number? path = none
      ∨ path ∈ flagPaths ∧ node.flag? path = none
      ∨ path ∈ paintPaths ∧ (Attributes.of node).ownPaint? path = none)

theorem IsMalformed.mem_valuePaths (h : IsMalformed node path) : path ∈ valuePaths := by
  simp only [valuePaths, List.mem_append]
  rcases h.2 with ⟨hpath, -⟩ | ⟨hpath, -⟩ | ⟨hpath, -⟩
  · exact .inl (.inl (List.mem_append.mp hpath))
  · exact .inl (.inr hpath)
  · exact .inr hpath

/-- No path is read as two things. -/
theorem disjoint_paths :
    (∀ p ∈ offsetPaths, p ∉ numberPaths) ∧ (∀ p ∈ offsetPaths ++ numberPaths, p ∉ flagPaths)
      ∧ (∀ p ∈ paintPaths, p ∉ offsetPaths ++ numberPaths ++ flagPaths)
      ∧ ∀ p ∈ valuePaths, p ∉ textPaths ∧ p ≠ "options" := by
  decide +kernel

theorem IsMalformed.number? (h : IsMalformed node path) (hpath : path ∈ offsetPaths ++ numberPaths) :
    node.number? path = none := by
  rcases h.2 with ⟨-, hnone⟩ | ⟨hflag, -⟩ | ⟨hpaint, -⟩
  · exact hnone
  · exact absurd hflag (disjoint_paths.2.1 path hpath)
  · exact absurd (List.mem_append_left _ hpath) (disjoint_paths.2.2.1 path hpaint)

theorem IsMalformed.flag? (h : IsMalformed node path) (hpath : path ∈ flagPaths) :
    node.flag? path = none := by
  rcases h.2 with ⟨hnumber, -⟩ | ⟨-, hnone⟩ | ⟨hpaint, -⟩
  · exact absurd hpath (disjoint_paths.2.1 path hnumber)
  · exact hnone
  · exact absurd (List.mem_append_right _ hpath) (disjoint_paths.2.2.1 path hpaint)

theorem IsMalformed.ownPaint? (h : IsMalformed node path) (hpath : path ∈ paintPaths) :
    (Attributes.of node).ownPaint? path = none := by
  have hother := disjoint_paths.2.2.1 path hpath
  rcases h.2 with ⟨hnumber, -⟩ | ⟨hflag, -⟩ | ⟨-, hnone⟩
  · exact absurd (List.mem_append_left _ hnumber) hother
  · exact absurd (List.mem_append_right _ hflag) hother
  · exact hnone

theorem ownText?_without (hpath : path ∈ valuePaths) (hother : other ∈ textPaths) (node : Node) :
    (Attributes.of (node.without path)).ownText? other = (Attributes.of node).ownText? other := by
  have hne : other ≠ path := fun heq => (disjoint_paths.2.2.2 path hpath).1 (heq ▸ hother)
  have hattr := attr?_without_ne hpath (by simp [readPaths, hother]) hne node
  simp only [Attributes.ownText?, Attributes.of, Node.text?, hattr]

/-- **An attribute that is refused may be left out**; an offset may be left out where it is not
read. -/
theorem readAlike_without (hpath : path ∈ valuePaths)
    (h : IsMalformed node path
      ∨ path ∈ offsetPaths ∧ (Attributes.of node).ownText? "alignment" ≠ none) :
    ReadAlike (node.without path) node where
  kind := rfl
  stateKey := rfl
  options := by
    have hne := (disjoint_paths.2.2.2 path hpath).2.symm
    rw [Node.list, attr?_without_ne hpath (by simp [readPaths]) hne, Node.list]
  number? q hq := by
    by_cases heq : q = path
    · subst heq
      have hnone : node.number? q = none := by
        rcases h with h | ⟨hoffset, -⟩
        · exact h.number? (List.mem_append_right _ hq)
        · exact absurd hq (disjoint_paths.1 q hoffset)
      rw [hnone, Node.number?, Node.attr?_without_self]
      rfl
    · rw [Node.number?, attr?_without_ne hpath (by simp [readPaths, valuePaths, hq]) heq, Node.number?]
  flag? q hq := by
    by_cases heq : q = path
    · subst heq
      have hnone : node.flag? q = none := by
        rcases h with h | ⟨hoffset, -⟩
        · exact h.flag? hq
        · exact absurd hq (disjoint_paths.2.1 q (List.mem_append_left _ hoffset))
      rw [hnone, Node.flag?, Node.attr?_without_self]
    · rw [Node.flag?, attr?_without_ne hpath (by simp [readPaths, valuePaths, hq]) heq, Node.flag?]
  text? q hq := by
    have hne : q ≠ path := fun heq => (disjoint_paths.2.2.2 path hpath).1 (heq ▸ hq)
    rw [Node.text?, attr?_without_ne hpath (by simp [readPaths, hq]) hne, Node.text?]
  ownPaint? q hq := by
    by_cases heq : q = path
    · subst heq
      have hnone : (Attributes.of node).ownPaint? q = none := by
        rcases h with h | ⟨hoffset, -⟩
        · exact h.ownPaint? hq
        · exact absurd (by simp [hoffset]) (disjoint_paths.2.2.1 q hq)
      rw [hnone, Attributes.ownPaint?, Attributes.of, Node.text?, Node.attr?_without_self]
      rfl
    · simp only [Attributes.ownPaint?, Attributes.of, Node.text?,
        attr?_without_ne hpath (by simp [readPaths, valuePaths, hq]) heq]
  offset hunaligned q hq := by
    rw [ownText?_without hpath (by simp [textPaths])] at hunaligned
    by_cases heq : q = path
    · subst heq
      have hnone : node.number? q = none := by
        rcases h with h | ⟨-, haligned⟩
        · exact h.number? (List.mem_append_left _ hq)
        · exact absurd hunaligned haligned
      rw [hnone, Node.number?, Node.attr?_without_self]
      rfl
    · rw [Node.number?, attr?_without_ne hpath (by simp [readPaths, valuePaths, hq]) heq, Node.number?]

/-! ## Anchors -/

/-- Whether the attribute at a path is all by which a label over a button says where it stands. -/
structure IsOnlyAnchor (node : Node) (path : String) : Prop where
  unaligned : (Attributes.of node).ownText? "alignment" = none
  offset : path ∈ offsetPaths
  there : node.hasAttr path = true
  alone : ∀ other ∈ offsetPaths, other ≠ path → node.hasAttr other = false

theorem hasAttr_without (hpath : path ∈ valuePaths) (hother : other ∈ offsetPaths) (node : Node) :
    (node.without path).hasAttr other = if other = path then false else node.hasAttr other := by
  split
  · next heq => rw [Node.hasAttr, heq, Node.attr?_without_self, Option.isSome_none]
  · next hne =>
      rw [Node.hasAttr, attr?_without_ne hpath (by simp [readPaths, valuePaths, hother]) hne,
        Node.hasAttr]

theorem isAnchored_without (hpath : path ∈ valuePaths) (node : Node) :
    isAnchored (node.without path)
      = (((Attributes.of node).ownText? "alignment").isSome
        || (if "top" = path then false else node.hasAttr "top")
        || (if "left" = path then false else node.hasAttr "left")) := by
  rw [isAnchored, ownText?_without hpath (by simp [textPaths]),
    hasAttr_without hpath (by simp [offsetPaths]), hasAttr_without hpath (by simp [offsetPaths])]

/-- A label loses its anchor with the attribute exactly if there is no other. -/
theorem isOnlyAnchor_iff (hpath : path ∈ valuePaths) :
    IsOnlyAnchor node path ↔ isAnchored node = true ∧ isAnchored (node.without path) = false := by
  rw [isAnchored_without hpath, isAnchored]
  constructor
  · rintro ⟨hunaligned, hoffset, hthere, halone⟩
    rcases List.mem_cons.mp hoffset with rfl | hoffset
    · have hleft := halone "left" (by simp [offsetPaths]) (by decide)
      simp [hunaligned, hthere, hleft]
    · obtain rfl := List.mem_singleton.mp hoffset
      have htop := halone "top" (by simp [offsetPaths]) (by decide)
      simp [hunaligned, hthere, htop]
  · rintro ⟨hanchored, hlost⟩
    simp only [Bool.or_eq_false_iff] at hlost
    obtain ⟨⟨haligned, htop⟩, hleft⟩ := hlost
    have hunaligned := Option.isNone_iff_eq_none.mp (Option.isSome_eq_false_iff.mp haligned)
    rw [haligned, Bool.false_or] at hanchored
    by_cases hpathTop : "top" = path
    · subst hpathTop
      have hnoleft : node.hasAttr "left" = false := by simpa using hleft
      refine ⟨hunaligned, by simp [offsetPaths], by simpa [hnoleft] using hanchored, ?_⟩
      simpa [offsetPaths] using hnoleft
    · have hnotop : node.hasAttr "top" = false := by simpa [hpathTop] using htop
      by_cases hpathLeft : "left" = path
      · subst hpathLeft
        refine ⟨hunaligned, by simp [offsetPaths], by simpa [hnotop] using hanchored, ?_⟩
        simpa [offsetPaths] using hnotop
      · have hnoleft : node.hasAttr "left" = false := by simpa [hpathLeft] using hleft
        simp [hnotop, hnoleft] at hanchored

/-- An attribute that counts as missing may be left out, whatever the node is drawn as, unless it is
the anchor of a label over a button. -/
theorem alike_without (role : Role) (hpath : path ∈ valuePaths)
    (h : IsMalformed node path
      ∨ path ∈ offsetPaths ∧ (Attributes.of node).ownText? "alignment" ≠ none)
    (hanchor : role = .overlay → node.kind = .label → ¬ IsOnlyAnchor node path) :
    Alike role (node.without path) node := by
  refine .node (readAlike_without hpath h) (fun hrole hlabel => ?_) (.refl _ _)
  have hkept := mt (isOnlyAnchor_iff hpath).mpr (hanchor hrole hlabel)
  cases hanchored : isAnchored node with
  | true => simpa [hanchored] using hkept
  | false =>
      rw [isAnchored, Bool.or_eq_false_iff, Bool.or_eq_false_iff] at hanchored
      obtain ⟨⟨haligned, htop⟩, hleft⟩ := hanchored
      rw [isAnchored_without hpath, haligned, htop, hleft]
      simp

end CanvasFlutter.Widget
