import CanvasFlutter.Proofs.Widget.Role

namespace CanvasFlutter.Widget

/-!
# `CanvasFlutter.Proofs.Widget.Reading` — what of a node is read

The attributes of a node reach its widget through a few accessors at a few paths. Nodes that give
the same there, and have nothing else below them either, are drawn alike, whatever else differs.

## Contents
- **Paths.** `numberPaths`, `flagPaths`, `paintPaths`, `textPaths`; the offsets apart.
- **Nodes.** `ReadAlike`, and one lemma for each widget.
- **Forests.** `Alike` and `AlikeAll` in a role; `Alike.lower_eq`, `AlikeAll.lowerAll_eq`.
-/

open CanvasFlutter.Dart

/-! ## Paths -/

/-- The numbers that place a widget; one that is aligned does not read them. -/
def offsetPaths : List String := ["top", "left"]

/-- The other numbers that widgets read. -/
def numberPaths : List String :=
  ["width", "height", "decoration.border.width", "decoration.borderRadius", "fontSize", "iconSize",
    "labelFontSize", "labelGap", "scale", "maxLength"]

/-- The truth values. -/
def flagPaths : List String := ["checked", "enabled", "obscureText"]

/-- The colours. -/
def paintPaths : List String :=
  ["decoration.color", "decoration.border.color", "color", "iconColor", "overlayColor", "hintColor",
    "labelColor", "activeColor", "checkColor", "dropdownColor"]

/-- The texts, names of constants among them. -/
def textPaths : List String :=
  ["alignment", "text", "textAlign", "fontWeight", "fontFamily", "icon", "tooltip", "navigateTo",
    "inputType", "borderStyle", "hintText", "labelText", "label", "labelPosition", "selectedOption"]

/-! ## Nodes -/

/-- Two nodes that are told apart by nothing that a widget reads of its own node. -/
structure ReadAlike (m n : Node) : Prop where
  kind : m.kind = n.kind
  stateKey : m.stateKey = n.stateKey
  options : m.list "options" = n.list "options"
  number? : ∀ path ∈ numberPaths, m.number? path = n.number? path
  flag? : ∀ path ∈ flagPaths, m.flag? path = n.flag? path
  text? : ∀ path ∈ textPaths, m.text? path = n.text? path
  ownPaint? : ∀ path ∈ paintPaths,
    (Attributes.of m).ownPaint? path = (Attributes.of n).ownPaint? path
  offset : (Attributes.of m).ownText? "alignment" = none →
    ∀ path ∈ offsetPaths, m.number? path = n.number? path

namespace ReadAlike

variable {m n : Node} {kind : Kind}

theorem number (h : ReadAlike m n) {path : String} (hpath : path ∈ numberPaths) :
    Attributes.number ⟨m, kind⟩ path = Attributes.number ⟨n, kind⟩ path := by
  rw [Attributes.number, h.number? path hpath, Attributes.number]

theorem flag (h : ReadAlike m n) {path : String} (hpath : path ∈ flagPaths) :
    Attributes.flag ⟨m, kind⟩ path = Attributes.flag ⟨n, kind⟩ path := by
  rw [Attributes.flag, h.flag? path hpath, Attributes.flag]

theorem text (h : ReadAlike m n) {path : String} (hpath : path ∈ textPaths) :
    Attributes.text ⟨m, kind⟩ path = Attributes.text ⟨n, kind⟩ path := by
  rw [Attributes.text, h.text? path hpath, Attributes.text]

theorem ownText? (h : ReadAlike m n) {path : String} (hpath : path ∈ textPaths) :
    Attributes.ownText? ⟨m, kind⟩ path = Attributes.ownText? ⟨n, kind⟩ path := by
  rw [Attributes.ownText?, h.text? path hpath, Attributes.ownText?]

theorem paint (h : ReadAlike m n) {path : String} (hpath : path ∈ paintPaths) :
    Attributes.paint ⟨m, kind⟩ path = Attributes.paint ⟨n, kind⟩ path := by
  have hown : Attributes.ownPaint? ⟨m, kind⟩ path = Attributes.ownPaint? ⟨n, kind⟩ path :=
    h.ownPaint? path hpath
  rw [Attributes.paint, hown, Attributes.paint]

theorem place (h : ReadAlike m n) (widget : Code) :
    Widget.place ⟨m, kind⟩ widget = Widget.place ⟨n, kind⟩ widget := by
  have halignment : Attributes.ownText? ⟨m, kind⟩ "alignment"
      = Attributes.ownText? ⟨n, kind⟩ "alignment" := h.ownText? (by simp [textPaths])
  rw [Widget.place, Widget.place, ← halignment]
  cases hown : Attributes.ownText? ⟨m, kind⟩ "alignment" with
  | some raw => rfl
  | none =>
      have hoffset : ∀ path ∈ offsetPaths,
          Attributes.number ⟨m, kind⟩ path = Attributes.number ⟨n, kind⟩ path := by
        intro path hpath
        rw [Attributes.number, h.offset hown path hpath, Attributes.number]
      simp only [offsetPaths, List.forall_mem_cons] at hoffset
      simp only [hoffset]

theorem borderLine? (h : ReadAlike m n) :
    Widget.borderLine? ⟨m, kind⟩ = Widget.borderLine? ⟨n, kind⟩ := by
  simp (disch := decide) only [Widget.borderLine?, h.number, h.paint]

theorem borderSide (h : ReadAlike m n) :
    Widget.borderSide ⟨m, kind⟩ = Widget.borderSide ⟨n, kind⟩ := by
  rw [Widget.borderSide, h.borderLine?, Widget.borderSide]

theorem boxDecoration? (h : ReadAlike m n) :
    Widget.boxDecoration? ⟨m, kind⟩ = Widget.boxDecoration? ⟨n, kind⟩ := by
  simp (disch := decide) only [Widget.boxDecoration?, h.borderLine?,
    h.number, h.paint]

theorem sizeArgs (h : ReadAlike m n) :
    Widget.sizeArgs ⟨m, kind⟩ = Widget.sizeArgs ⟨n, kind⟩ := by
  simp (disch := decide) only [Widget.sizeArgs, h.number]

theorem container (h : ReadAlike m n) (decoration child : Option Code) :
    Widget.container ⟨m, kind⟩ decoration child = Widget.container ⟨n, kind⟩ decoration child := by
  rw [Widget.container, h.sizeArgs, Widget.container]

theorem textStyle (h : ReadAlike m n) {sizePath colorPath : String} (hsize : sizePath ∈ numberPaths)
    (hcolor : colorPath ∈ paintPaths) :
    TextStyle.of ⟨m, kind⟩ sizePath colorPath = TextStyle.of ⟨n, kind⟩ sizePath colorPath := by
  simp (disch := first | assumption | decide) only [TextStyle.of, h.number, h.paint, h.text,
    h.ownText?]

theorem label (h : ReadAlike m n) : Widget.label ⟨m, kind⟩ = Widget.label ⟨n, kind⟩ := by
  simp (disch := decide) only [Widget.label, h.text, h.paint,
    h.textStyle, h.boxDecoration?, h.container]

theorem overlayLabel (h : ReadAlike m n) (hanchored : isAnchored m = isAnchored n)
    (overlayColor : Paint) : Widget.overlayLabel overlayColor m = Widget.overlayLabel overlayColor n := by
  have hcolor := h.ownPaint? "color" (by simp [paintPaths])
  have hof : Attributes.of m = ⟨m, n.kind⟩ := by rw [Attributes.of, h.kind]
  unfold Widget.overlayLabel
  show (if isAnchored m = true then _ else _) = (if isAnchored n = true then _ else _)
  rw [hanchored, hcolor, hof]
  simp (disch := decide) only [h.text, h.textStyle, h.place]
  rfl

theorem iconAction (h : ReadAlike m n)
    (hoverlays : ∀ color, (m.children.filter (·.kind = .label)).map (Widget.overlayLabel color)
      = (n.children.filter (·.kind = .label)).map (Widget.overlayLabel color)) :
    Widget.iconAction ⟨m, kind⟩ = Widget.iconAction ⟨n, kind⟩ := by
  simp (disch := decide) only [Widget.iconAction, h.text, h.paint,
    h.number, h.ownText?, h.boxDecoration?, h.container, hoverlays]

theorem textAction (h : ReadAlike m n) :
    Widget.textAction ⟨m, kind⟩ = Widget.textAction ⟨n, kind⟩ := by
  simp (disch := decide) only [Widget.textAction, h.text, h.paint,
    h.number, h.ownText?, h.borderSide, h.sizeArgs, h.textStyle]

theorem inputDecoration (h : ReadAlike m n) :
    Widget.inputDecoration ⟨m, kind⟩ = Widget.inputDecoration ⟨n, kind⟩ := by
  simp (disch := decide) only [Widget.inputDecoration, inputBorder,
    h.text, h.paint, h.number, h.ownText?, h.borderSide]

theorem textInput (h : ReadAlike m n) :
    Widget.textInput ⟨m, kind⟩ = Widget.textInput ⟨n, kind⟩ := by
  have hlength : maxLength? ⟨m, kind⟩ = maxLength? ⟨n, kind⟩ := by
    rw [maxLength?, h.number? "maxLength" (by simp [numberPaths]), maxLength?]
  simp (disch := decide) only [Widget.textInput, hlength,
    h.text, h.flag, h.number, h.textStyle, h.inputDecoration]

theorem toggleBox (h : ReadAlike m n) :
    Widget.toggleBox ⟨m, kind⟩ = Widget.toggleBox ⟨n, kind⟩ := by
  simp (disch := decide) only [Widget.toggleBox, tickSize, h.stateKey,
    h.text, h.paint, h.number, h.ownText?, h.sizeArgs, h.borderLine?, h.textStyle]

theorem choiceDropdown (h : ReadAlike m n) :
    Widget.choiceDropdown ⟨m, kind⟩ = Widget.choiceDropdown ⟨n, kind⟩ := by
  simp (disch := decide) only [Widget.choiceDropdown, h.stateKey,
    h.options, h.paint, h.ownText?, h.sizeArgs, h.boxDecoration?, h.textStyle]

theorem panel (h : ReadAlike m n) (children : List Code) :
    Widget.panel ⟨m, kind⟩ children = Widget.panel ⟨n, kind⟩ children := by
  rw [Widget.panel, h.boxDecoration?, h.container, Widget.panel]

end ReadAlike

/-! ## Forests -/

mutual

/-- Two nodes that are told apart by nothing that is read of them or below them, given what they are
drawn as. -/
inductive Alike : Role → Node → Node → Prop where
  | node {role : Role} {m n : Node} (h : ReadAlike m n)
      (hanchored : role = .overlay → m.kind = .label → isAnchored m = isAnchored n)
      (hchildren : AlikeAll (role.below m.kind) m.children n.children) : Alike role m n

/-- The same for forests, node by node. -/
inductive AlikeAll : Role → List Node → List Node → Prop where
  | nil {role : Role} : AlikeAll role [] []
  | cons {role : Role} {m n : Node} {ms ns : List Node} (h : Alike role m n)
      (hrest : AlikeAll role ms ns) : AlikeAll role (m :: ms) (n :: ns)

end

variable {m n : Node} {ms ns : List Node}

theorem Alike.readAlike {role : Role} (h : Alike role m n) : ReadAlike m n := by
  cases h with
  | node h _ _ => exact h

theorem Alike.children {role : Role} (h : Alike role m n) :
    AlikeAll (role.below m.kind) m.children n.children := by
  cases h with
  | node _ _ hchildren => exact hchildren

theorem AlikeAll.append {role : Role} {ms' ns' : List Node} (h : AlikeAll role ms ns)
    (h' : AlikeAll role ms' ns') : AlikeAll role (ms ++ ms') (ns ++ ns') := by
  induction ms generalizing ns with
  | nil =>
      cases h
      exact h'
  | cons m ms ih =>
      cases h with
      | cons h hrest => exact .cons h (ih hrest)

theorem ReadAlike.refl (n : Node) : ReadAlike n n where
  kind := rfl
  stateKey := rfl
  options := rfl
  number? _ _ := rfl
  flag? _ _ := rfl
  text? _ _ := rfl
  ownPaint? _ _ := rfl
  offset _ _ _ := rfl

mutual

theorem Alike.refl (role : Role) (n : Node) : Alike role n n := by
  obtain ⟨kind, id, attrs, children⟩ := n
  exact .node (.refl _) (fun _ _ => rfl) (AlikeAll.refl _ children)

theorem AlikeAll.refl (role : Role) (ns : List Node) : AlikeAll role ns ns := by
  cases ns with
  | nil => exact .nil
  | cons n ns => exact .cons (Alike.refl role n) (AlikeAll.refl role ns)

end

mutual

/-- What is drawn alike is also alike where nothing is drawn. -/
theorem Alike.hidden {role : Role} (m : Node) {n : Node} (h : Alike role m n) : Alike .hidden m n := by
  obtain ⟨kind, id, attrs, children⟩ := m
  refine .node h.readAlike (fun hrole => by simp at hrole) ?_
  rw [Role.below_hidden]
  exact AlikeAll.hidden children h.children

theorem AlikeAll.hidden {role : Role} (ms : List Node) {ns : List Node} (h : AlikeAll role ms ns) :
    AlikeAll .hidden ms ns := by
  cases ms with
  | nil =>
      cases h
      exact .nil
  | cons m ms =>
      cases h with
      | cons h hrest => exact .cons (Alike.hidden m h) (AlikeAll.hidden ms hrest)

end

/-- The labels over a button are drawn alike. -/
theorem AlikeAll.overlays_eq (h : AlikeAll .overlay ms ns) (color : Paint) :
    (ms.filter (·.kind = .label)).map (overlayLabel color)
      = (ns.filter (·.kind = .label)).map (overlayLabel color) := by
  induction ms generalizing ns with
  | nil =>
      cases h
      rfl
  | cons m ms ih =>
      cases h with
      | cons h hrest =>
          cases h with
          | node h hanchored _ =>
              rw [List.filter_cons, List.filter_cons, ← h.kind]
              by_cases hlabel : m.kind = .label
              · rw [if_pos (by simpa using hlabel), if_pos (by simpa using hlabel), List.map_cons,
                  List.map_cons, ih hrest, h.overlayLabel (hanchored rfl hlabel)]
              · rw [if_neg (by simpa using hlabel), if_neg (by simpa using hlabel), ih hrest]

mutual

/-- **What is alike has the same widget.** -/
theorem Alike.lower_eq {role : Role} (m : Node) {n : Node} (h : Alike role m n) (hrole : role = .top ∨ role = .inner) :
    lower m = lower n := by
  have hread := h.readAlike
  have hbelow := h.children
  have hkind := hread.kind
  obtain ⟨kind, id, attrs, children⟩ := m
  obtain ⟨kind', id', attrs', children'⟩ := n
  obtain rfl : kind = kind' := hkind
  cases kind with
  | headerBar => rfl
  | label => simp only [lower, Attributes.of, hread.place, hread.label]
  | iconAction =>
      have hover : AlikeAll .overlay children children' := by
        rcases hrole with rfl | rfl <;> exact hbelow
      simp only [lower, Attributes.of, hread.place, hread.iconAction hover.overlays_eq]
  | textAction => simp only [lower, Attributes.of, hread.place, hread.textAction]
  | textInput => simp only [lower, Attributes.of, hread.place, hread.textInput]
  | toggleBox => simp only [lower, Attributes.of, hread.place, hread.toggleBox]
  | choiceDropdown => simp only [lower, Attributes.of, hread.place, hread.choiceDropdown]
  | panel =>
      have hinner : AlikeAll .inner children children' := by
        rcases hrole with rfl | rfl <;> exact hbelow
      simp only [lower, Attributes.of, hread.place, hread.panel, AlikeAll.lowerAll_eq children hinner]
  | unknown tag =>
      simp only [lower, Attributes.of, hread.place, hread.boxDecoration?, hread.container]

theorem AlikeAll.lowerAll_eq (ms : List Node) {ns : List Node} (h : AlikeAll .inner ms ns) :
    lowerAll ms = lowerAll ns := by
  cases ms with
  | nil =>
      cases h
      rfl
  | cons m ms =>
      cases h with
      | cons h hrest =>
          rw [lowerAll, lowerAll, Alike.lower_eq m h (.inr rfl), AlikeAll.lowerAll_eq ms hrest]

end

end CanvasFlutter.Widget
