import CanvasFlutter.Proofs.Widget.Vocabulary

namespace CanvasFlutter.Widget

/-!
# `CanvasFlutter.Proofs.Widget.Lower` — every widget is made of listed source

One lemma for each part of a widget, in the order in which widgets are built, and then the induction
over the forest: whatever nodes are drawn, their widgets keep to the vocabulary.

## Contents
- **Values.** What attributes give: paints have eight digits, names are listed.
- **Parts.** Boxes, text, actions and inputs.
- **Forests.** `Admits` says what a scope must allow for a node; `made_lower`, `made_lowerAsPanel`.
-/

open CanvasFlutter.Dart

variable {scope : Scope} {a : Attributes}

/-! ## Values -/

theorem hasDigits_argb? {digits argb : Text} (hdigits : ∀ c ∈ digits, isHexDigit c = true)
    (h : argb? digits = some argb) : HasDigits (.color argb) := by
  have hopaque : isHexDigit 'F' = true := by decide
  unfold argb? at h
  split at h
  · cases h
    simp_all [HasDigits]
  · cases h
    simp_all [HasDigits]
  · cases h
    simp_all [HasDigits]
  · simp at h

theorem hasDigits_parse? {raw : Text} {p : Paint} (h : Paint.parse? raw = some p) :
    HasDigits p := by
  rw [Paint.parse?] at h
  split at h
  · cases h
    trivial
  · simp only at h
    split at h
    · next hdigits =>
        obtain ⟨argb, hargb, rfl⟩ := Option.map_eq_some_iff.mp h
        exact hasDigits_argb? (by simpa using hdigits) hargb
    · simp at h

theorem hasDigits_getD {o : Option Paint} {p : Paint} (ho : ∀ q ∈ o, HasDigits q)
    (hp : HasDigits p) : HasDigits (o.getD p) := by
  cases o with
  | none => exact hp
  | some q => exact ho q rfl

theorem hasDigits_ownPaint? {path : String} {p : Paint} (h : a.ownPaint? path = some p) :
    HasDigits p := by
  obtain ⟨s, -, hs⟩ := Option.bind_eq_some_iff.mp h
  exact hasDigits_parse? hs

theorem hasDigits_paint (a : Attributes) (path : String) : HasDigits (a.paint path) := by
  rw [Attributes.paint]
  split
  · next p h => exact hasDigits_ownPaint? h
  · split
    · exact hasDigits_getD (fun q hq => hasDigits_parse? hq) trivial
    · trivial

theorem alignment_mem (raw : Text) : Name.alignment raw ∈ words := by
  rw [Name.alignment]
  split <;> simp [words]

theorem textAlign_mem (raw : Text) (fallback : String) (h : fallback ∈ words) :
    Name.textAlign raw fallback ∈ words := by
  rw [Name.textAlign]
  split
  case h_7 => exact h
  all_goals simp [words]

theorem fontWeight?_mem {raw : Text} {weight : String} (h : Name.fontWeight? raw = some weight) :
    weight ∈ words := by
  rw [Name.fontWeight?] at h
  split at h
  case h_18 => simp at h
  all_goals
    cases h
    simp [words]

theorem keyboardType_mem (raw : Text) : Name.keyboardType raw ∈ words := by
  rw [Name.keyboardType]
  split <;> simp [words]

theorem isIdentifier_identifier (raw : Text) {fallback : Text} (h : fallback.IsIdentifier) :
    (Name.identifier raw fallback).IsIdentifier := by
  have hname : Text.IsName ((Text.trim raw).filter Text.isAsciiWord) :=
    fun c hc => (List.mem_filter.mp hc).2
  rw [Name.identifier]
  split
  · exact h
  · next first rest hcleaned =>
      split
      · next hfirst =>
          rw [hcleaned] at hname ⊢
          exact ⟨hfirst, (Text.isName_cons.mp hname).2⟩
      · exact h

/-! ## Boxes -/

theorem Made.numberArg {name : String} {x : Float} (h : scope.number x)
    (hname : name ∈ argumentNames := by simp [argumentNames]) : Made scope (numberArg name x) :=
  .named (.number h) hname

theorem Made.wordArg {name source : String}
    (hname : name ∈ argumentNames := by simp [argumentNames])
    (h : source ∈ words := by simp [words]) : Made scope (wordArg name source) :=
  .named (.word h) hname

theorem Made.flagArg {name : String} {b : Bool}
    (hname : name ∈ argumentNames := by simp [argumentNames]) : Made scope (flagArg name b) := by
  cases b <;> exact .wordArg hname

theorem made_namedIfAny {name : String} {value : Option Code} (h : ∀ v ∈ value, Made scope v)
    (hname : name ∈ argumentNames := by simp [argumentNames]) :
    ∀ c ∈ Code.namedIfAny name value, Made scope c := by
  cases value with
  | none => simp [Code.namedIfAny]
  | some v => simpa [Code.namedIfAny] using .named (h v rfl) hname

/-- All numbers of a node are within the scope. -/
def AdmitsNumbers (scope : Scope) (a : Attributes) : Prop := ∀ path, scope.number (a.number path)

theorem made_place (ha : AdmitsNumbers scope a) {widget : Code} (h : Made scope widget) :
    Made scope (place a widget) := by
  rw [place]
  split
  · refine .call ?_
    simp only [List.forall_mem_cons]
    exact ⟨.named (.word (alignment_mem _)), .named h, by simp⟩
  · refine .call ?_
    simp only [List.forall_mem_cons]
    exact ⟨.numberArg (ha _), .numberArg (ha _), .named h, by simp⟩

theorem made_borderLine? (ha : AdmitsNumbers scope a) {line : BorderLine}
    (h : borderLine? a = some line) : ∀ c ∈ line.args, Made scope c := by
  have hpaint := hasDigits_paint a "decoration.border.color"
  rw [borderLine?] at h
  split at h
  · next color hcolor =>
      split at h
      · cases h
        rw [hcolor] at hpaint
        simp only [BorderLine.args, List.forall_mem_cons]
        exact ⟨.named (.paint hpaint), .numberArg (ha _), by simp⟩
      · simp at h
  · simp at h

theorem made_border (ha : AdmitsNumbers scope a) :
    ∀ c ∈ (borderLine? a).map BorderLine.border, Made scope c := by
  intro c hc
  obtain ⟨line, hline, rfl⟩ := Option.map_eq_some_iff.mp hc
  exact .call (made_borderLine? ha hline)

theorem made_borderSide (ha : AdmitsNumbers scope a) : Made scope (borderSide a) := by
  rw [borderSide]
  split
  · next line hline => exact .call (made_borderLine? ha hline)
  · exact .word

theorem made_corners {radius : Float} (h : scope.number radius) : Made scope (corners radius) :=
  .apply (by simpa using .number h)

example : (corners 8).render = "BorderRadius.circular(8)".toList := by decide +kernel

theorem made_boxDecoration? (ha : AdmitsNumbers scope a) :
    ∀ c ∈ boxDecoration? a, Made scope c := by
  intro c hc
  rw [boxDecoration?, decoration?] at hc
  split at hc
  · simp at hc
  · obtain rfl := Option.some.inj hc
    refine .call ?_
    simp only [List.forall_mem_append]
    refine ⟨⟨made_namedIfAny ?_, made_namedIfAny (made_border ha)⟩, made_namedIfAny ?_⟩
    · split
      · simp
      · simpa using .paint (hasDigits_paint a _)
    · split
      · simpa using made_corners (ha _)
      · simp

theorem made_sizeArgs (ha : AdmitsNumbers scope a) : ∀ c ∈ sizeArgs a, Made scope c := by
  simp only [sizeArgs, List.forall_mem_cons]
  exact ⟨.numberArg (ha _), .numberArg (ha _), by simp⟩

theorem made_container (ha : AdmitsNumbers scope a) {decoration child : Option Code}
    (hdecoration : ∀ c ∈ decoration, Made scope c) (hchild : ∀ c ∈ child, Made scope c) :
    Made scope (container a decoration child) := by
  refine .call ?_
  simp only [List.forall_mem_append]
  exact ⟨⟨made_sizeArgs ha, made_namedIfAny hdecoration⟩, made_namedIfAny hchild⟩

theorem made_center {child : Code} (h : Made scope child) : Made scope (center child) :=
  .call (by simpa using .named h)

theorem made_stack {layers : List Code} (h : ∀ c ∈ layers, Made scope c) :
    Made scope (stack layers) :=
  .call (by simpa using .named (.list h))

/-! ## Text -/

/-- A text style that is made of listed source. -/
structure TextStyle.Fits (scope : Scope) (style : TextStyle) : Prop where
  fontSize : scope.number style.fontSize
  color : HasDigits style.color
  weight : ∀ w ∈ style.weight, w ∈ words

theorem fits_textStyle (ha : AdmitsNumbers scope a) (sizePath colorPath : String) :
    (TextStyle.of a sizePath colorPath).Fits scope where
  fontSize := ha _
  color := hasDigits_paint a _
  weight w hw := by
    simp only [TextStyle.of, Option.mem_def] at hw
    exact fontWeight?_mem hw

theorem TextStyle.Fits.recolor {style : TextStyle} (h : style.Fits scope) {color : Paint}
    (hcolor : HasDigits color) : { style with color := color }.Fits scope :=
  ⟨h.fontSize, hcolor, h.weight⟩

theorem TextStyle.Fits.made {style : TextStyle} (h : style.Fits scope) :
    Made scope style.code := by
  refine .call ?_
  simp only [List.forall_mem_append, List.forall_mem_cons]
  refine ⟨⟨⟨.numberArg h.fontSize, .named (.paint h.color), by simp⟩, made_namedIfAny ?_⟩,
    made_namedIfAny ?_⟩
  · intro c hc
    obtain ⟨w, hw, rfl⟩ := Option.map_eq_some_iff.mp hc
    exact .word (h.weight w hw)
  · intro c hc
    obtain ⟨family, -, rfl⟩ := Option.map_eq_some_iff.mp hc
    exact .literal family

theorem made_textWidget {content : String} {style : TextStyle} (h : style.Fits scope)
    {more : List Code} (hmore : ∀ c ∈ more, Made scope c) :
    Made scope (textWidget content style more) := by
  refine .call ?_
  simp only [List.cons_append, List.forall_mem_cons, List.forall_mem_append]
  exact ⟨.literal content, hmore, .named h.made, by simp⟩

theorem made_label (ha : AdmitsNumbers scope a) : Made scope (label a) := by
  have hcontent : ∀ {align : String}, align ∈ words → Made scope
      (textWidget (a.text "text") (TextStyle.of a "fontSize" "color")
        [Widget.wordArg "textAlign" align]) := fun h =>
    made_textWidget (fits_textStyle ha _ _) (by simpa using .named (.word h))
  have halign := textAlign_mem (a.text "textAlign").toList "TextAlign.start"
    (by simp [words])
  rw [label]
  split
  · exact made_container ha (made_boxDecoration? ha) (by simpa using made_center (hcontent halign))
  · exact hcontent halign

/-! ## Actions -/

theorem made_navigate (route : String) : Made scope (navigate route) := by
  refine .closure ?_
  simp only [List.forall_mem_cons]
  refine ⟨.apply ?_, by simp⟩
  simp only [List.forall_mem_cons]
  exact ⟨.word, .literal route, by simp⟩

example : (navigate "home").render
    = "() \x7b\n  Navigator.pushNamed(context, 'home');\n\x7d".toList := by decide +kernel

/-- The text of a label over a button. -/
def overlayText (overlayColor : Paint) (child : Node) : Code :=
  textWidget ((Attributes.of child).text "text")
    { TextStyle.of (Attributes.of child) "fontSize" "color" with
      color := ((Attributes.of child).ownPaint? "color").getD overlayColor } []

theorem overlayLabel_eq (overlayColor : Paint) (child : Node) :
    overlayLabel overlayColor child
      = if ((Attributes.of child).ownText? "alignment").isSome || child.hasAttr "top"
          || child.hasAttr "left" then
          place (.of child) (overlayText overlayColor child)
        else center (overlayText overlayColor child) := rfl

theorem made_overlayText {overlayColor : Paint} (hcolor : HasDigits overlayColor) {child : Node}
    (hchild : AdmitsNumbers scope (Attributes.of child)) :
    Made scope (overlayText overlayColor child) :=
  made_textWidget ((fits_textStyle hchild _ _).recolor
    (hasDigits_getD (fun _ h => hasDigits_ownPaint? h) hcolor)) (by simp)

theorem made_overlayLabel {overlayColor : Paint} (hcolor : HasDigits overlayColor) {child : Node}
    (hchild : AdmitsNumbers scope (Attributes.of child)) :
    Made scope (overlayLabel overlayColor child) := by
  rw [overlayLabel_eq]
  split
  · exact made_place hchild (made_overlayText hcolor hchild)
  · exact made_center (made_overlayText hcolor hchild)

theorem made_literals (text : Option String) : ∀ c ∈ text.map Code.literal, Made scope c := by
  intro c hc
  obtain ⟨t, -, rfl⟩ := Option.map_eq_some_iff.mp hc
  exact .literal t

/-- A button with an icon, without its box and the labels over it. -/
def iconButton (a : Attributes) : Code :=
  .call "IconButton"
    (Code.namedIfAny "tooltip" ((a.ownText? "tooltip").map Code.literal)
      ++ [.named "icon" (.call "Icon"
          [.icon (Name.identifier (a.text "icon").toList "help_outline".toList),
            .named "color" (.paint (a.paint "iconColor")), numberArg "size" (a.number "iconSize")]),
        .named "onPressed" (navigate (a.text "navigateTo"))])

/-- The labels over a button. -/
def overlays (a : Attributes) : List Code :=
  (a.node.children.filter (·.kind = .label)).map (overlayLabel (a.paint "overlayColor"))

theorem iconAction_eq (a : Attributes) :
    iconAction a = container a (boxDecoration? a) (some (if (overlays a).isEmpty then iconButton a
      else stack (center (iconButton a) :: overlays a))) := rfl

theorem made_iconButton (ha : AdmitsNumbers scope a) : Made scope (iconButton a) := by
  refine .call ?_
  simp only [List.forall_mem_append, List.forall_mem_cons]
  refine ⟨made_namedIfAny (made_literals _), .named (.call ?_), .named (made_navigate _), by simp⟩
  simp only [List.forall_mem_cons]
  exact ⟨.icon (isIdentifier_identifier _ (by decide)), .named (.paint (hasDigits_paint a _)),
    .numberArg (ha _), by simp⟩

theorem made_overlays (hchildren : ∀ child ∈ a.node.children, AdmitsNumbers scope (Attributes.of child)) :
    ∀ c ∈ overlays a, Made scope c := by
  intro c hc
  obtain ⟨node, hnode, rfl⟩ := List.mem_map.mp hc
  exact made_overlayLabel (hasDigits_paint a _) (hchildren node (List.mem_filter.mp hnode).1)

theorem made_iconAction (ha : AdmitsNumbers scope a)
    (hchildren : ∀ child ∈ a.node.children, AdmitsNumbers scope (Attributes.of child)) :
    Made scope (iconAction a) := by
  have hbutton : Made scope (iconButton a) := made_iconButton ha
  rw [iconAction_eq]
  refine made_container ha (made_boxDecoration? ha) ?_
  split
  · simpa using hbutton
  · simpa using made_stack
      (List.forall_mem_cons.mpr ⟨made_center hbutton, made_overlays hchildren⟩)

theorem made_textAction (ha : AdmitsNumbers scope a) : Made scope (textAction a) := by
  unfold textAction
  extract_lets shape style onPressed align content button
  have hshape : Made scope shape := by
    refine .call ?_
    simp only [List.forall_mem_cons]
    exact ⟨.named (made_corners (ha _)), .named (made_borderSide ha), by simp⟩
  have hstyle : Made scope style := by
    refine .call ?_
    simp only [List.forall_mem_cons]
    exact ⟨.named (.paint (hasDigits_paint a _)), .wordArg, .named hshape, by simp⟩
  have hpressed : Made scope onPressed := by
    simp only [onPressed]
    split
    · exact made_navigate _
    · exact .closure (by simp)
  have hcontent : Made scope content := by
    refine made_textWidget (fits_textStyle ha _ _) ?_
    simp only [List.forall_mem_cons]
    exact ⟨.named (.word (textAlign_mem _ _ (by simp [words]))), .wordArg, .wordArg, by simp⟩
  have hbutton : Made scope button := by
    refine .call ?_
    simp only [List.forall_mem_cons]
    exact ⟨.named hstyle, .named hpressed, .named hcontent, by simp⟩
  refine .call ?_
  simp only [List.forall_mem_append, List.forall_mem_cons]
  exact ⟨made_sizeArgs ha, .named hbutton, by simp⟩

/-! ## Inputs -/

theorem made_inputBorder (ha : AdmitsNumbers scope a) : Made scope (inputBorder a) := by
  rw [inputBorder]
  split
  · exact .call (by simpa using .named (made_borderSide ha))
  · refine .call ?_
    simp only [List.forall_mem_cons]
    exact ⟨.named (made_corners (ha _)), .named (made_borderSide ha), by simp⟩

-- The style of a border is read without regard to case.
example : (inputBorder (.of ⟨.textInput, none, [("borderStyle", .string "Underline")], []⟩)).render
    = "UnderlineInputBorder(\n  borderSide: BorderSide(\n    color: Color(0xFF000000),\n    width: 1,\n  ),\n)".toList := by
  decide +kernel

theorem made_inputDecoration (ha : AdmitsNumbers scope a) : Made scope (inputDecoration a) := by
  unfold inputDecoration
  extract_lets colorStyle border fillArgs
  have hcolorStyle : ∀ path, Made scope (colorStyle path) := fun path =>
    .call (by simpa using .named (.paint (hasDigits_paint a path)))
  have hfill : ∀ c ∈ fillArgs, Made scope c := by
    simp only [fillArgs]
    split
    · simp
    · simp only [List.forall_mem_cons]
      exact ⟨.wordArg, .named (.paint (hasDigits_paint a _)), by simp⟩
  refine .call ?_
  simp only [List.forall_mem_append, List.forall_mem_cons]
  exact ⟨⟨⟨⟨made_namedIfAny (made_literals _), made_namedIfAny (made_literals _)⟩,
    .named (hcolorStyle _), .named (hcolorStyle _), by simp⟩, hfill⟩,
    .named (made_inputBorder ha), .named (made_inputBorder ha), by simp⟩

theorem made_textInput (ha : AdmitsNumbers scope a)
    (hlength : ∀ x, maxLength? a = some x → scope.number x) : Made scope (textInput a) := by
  unfold textInput
  extract_lets inputType multiline linesArgs field heightArg
  have hlines : ∀ c ∈ linesArgs, Made scope c := by
    simp only [linesArgs]
    split
    all_goals simp only [List.forall_mem_cons]
    · exact ⟨.wordArg, .wordArg, by simp⟩
    · exact ⟨.wordArg, .flagArg, by simp⟩
  have hmaxLength : ∀ c ∈ (maxLength? a).map Code.number, Made scope c := by
    intro c hc
    obtain ⟨x, hx, rfl⟩ := Option.map_eq_some_iff.mp hc
    exact .number (hlength x hx)
  have hfield : Made scope field := by
    refine .call ?_
    simp only [List.forall_mem_append, List.forall_mem_cons]
    exact ⟨⟨⟨⟨.flagArg, .named (.word (keyboardType_mem _)), by simp⟩, hlines⟩,
      made_namedIfAny hmaxLength⟩, .named (fits_textStyle ha _ _).made,
      .named (made_inputDecoration ha), .named (.closure (by simp)), by simp⟩
  have hheight : ∀ c ∈ heightArg, Made scope c := by
    simp only [heightArg]
    split
    · simpa using .numberArg (ha _)
    · simp
  refine .call ?_
  simp only [List.cons_append, List.forall_mem_append, List.forall_mem_cons]
  exact ⟨.numberArg (ha _), hheight, .named hfield, by simp⟩

theorem made_beside {side : Side} {gap : Float} (hgap : scope.number gap) {label box : Code}
    (hlabel : Made scope label) (hbox : Made scope box) :
    Made scope (beside side gap label box) := by
  unfold beside
  extract_lets row
  have hrow : ∀ {dimension flex : String} {children : Code → List Code},
      dimension ∈ argumentNames → flex ∈ callees →
      (∀ spacer, Made scope spacer → ∀ c ∈ children spacer, Made scope c) →
      Made scope (row dimension flex children) := by
    intro dimension flex children hdimension hflex hchildren
    refine .call ?_ hflex
    simp only [List.forall_mem_cons]
    refine ⟨.wordArg, .named (.list (hchildren _ (.apply ?_))), by simp⟩
    simpa using .numberArg hgap hdimension
  have hfirst : ∀ spacer, Made scope spacer → ∀ c ∈ [label, spacer, box], Made scope c := by
    simpa using fun _ h => ⟨hlabel, h, hbox⟩
  have hlast : ∀ spacer, Made scope spacer → ∀ c ∈ [box, spacer, label], Made scope c := by
    simpa using fun _ h => ⟨hbox, h, hlabel⟩
  cases side
  · exact hrow (by simp [argumentNames]) (by simp [callees]) hfirst
  · exact hrow (by simp [argumentNames]) (by simp [callees]) hlast
  · exact hrow (by simp [argumentNames]) (by simp [callees]) hfirst
  · exact hrow (by simp [argumentNames]) (by simp [callees]) hlast

theorem made_setState (hscope : scope.setState) {change : Code} (h : Made scope change) :
    Made scope (setState change) :=
  .setState hscope (by simpa using .closure (by simpa using h))

example : (setState (.word "null")).render = "setState(() \x7b\n  null;\n\x7d)".toList := by
  decide +kernel

theorem made_toggleBox (ha : AdmitsNumbers scope a) (htick : scope.number (tickSize a))
    (hscope : scope.setState) (hentry : scope.entry checkboxState a.node.stateKey) :
    Made scope (toggleBox a) := by
  unfold toggleBox
  extract_lets entry value radius shapeArg fill decoration tick box content detector scale
  have hvalue : Made scope value := .orFalse (.entry hentry)
  have hshape : Made scope shapeArg := by
    simp only [shapeArg]
    split
    · exact .wordArg
    · exact .named (made_corners (ha _))
  have hfill : Made scope fill :=
    .choice hvalue (.paint (hasDigits_paint a _)) (.paint trivial)
  have hdecoration : Made scope decoration := by
    refine .call ?_
    simp only [List.cons_append, List.forall_mem_append, List.forall_mem_cons]
    exact ⟨.named hfill, made_namedIfAny (made_border ha), hshape, by simp⟩
  have hicon : Made scope tick := by
    refine .call ?_
    simp only [List.forall_mem_cons]
    exact ⟨.word, .numberArg htick, .named (.paint (hasDigits_paint a _)), by simp⟩
  have hbox : Made scope box := by
    refine .call ?_
    simp only [List.forall_mem_append, List.forall_mem_cons]
    exact ⟨made_sizeArgs ha, .named hdecoration, .named (.choice hvalue hicon .word), by simp⟩
  have hcontent : Made scope content := by
    simp only [content]
    split
    · exact hbox
    · exact made_beside (ha _) (made_textWidget (fits_textStyle ha _ _) (by simp)) hbox
  have hdetector : Made scope detector := by
    refine .call ?_
    simp only [List.forall_mem_cons]
    refine ⟨.named (.closure ?_), .named hcontent, by simp⟩
    simpa using made_setState hscope (.assign (.entry hentry) (.negated hvalue))
  split
  · refine .call ?_
    simp only [List.forall_mem_cons]
    exact ⟨.numberArg (ha _), .wordArg, .named hdetector, by simp⟩
  · exact hdetector

theorem made_choiceDropdown (ha : AdmitsNumbers scope a) (hscope : scope.setState)
    (hentry : scope.entry dropdownState a.node.stateKey) : Made scope (choiceDropdown a) := by
  unfold choiceDropdown
  extract_lets current options item items onChanged hint dropdown
  have hcurrent : Made scope current := .entry hentry
  have hitem : Made scope item := by
    refine .call ?_
    simp only [List.forall_mem_cons]
    refine ⟨.wordArg, .named (.call ?_), by simp⟩
    simp only [List.forall_mem_cons]
    exact ⟨.word, .wordArg, by simp⟩
  have hitems : Made scope items := by
    refine .method trivial (.method trivial (.strings _) ?_) (by simp)
    simpa using .closure (by simpa using .result hitem)
  have hchanged : Made scope onChanged := by
    refine .closure ?_
    simp only [List.forall_mem_cons]
    exact ⟨.word, made_setState hscope (.assign hcurrent .word), by simp⟩
  have hhint : ∀ c ∈ hint, Made scope c := by
    intro c hc
    obtain ⟨text, -, rfl⟩ := Option.map_eq_some_iff.mp hc
    exact .call (by simpa using .literal text)
  have hdropdown : Made scope dropdown := by
    refine .call ?_
    simp only [List.forall_mem_append, List.forall_mem_cons]
    exact ⟨⟨⟨.named (.choice (.method trivial (.strings _) (by simpa using hcurrent)) hcurrent .word),
      .wordArg, by simp⟩, made_namedIfAny hhint⟩, .named (.paint (hasDigits_paint a _)),
      .named (fits_textStyle ha _ _).made, .named hitems, .named hchanged, by simp⟩
  refine .call ?_
  simp only [List.forall_mem_append, List.forall_mem_cons]
  exact ⟨⟨⟨made_sizeArgs ha, .named (.apply (by simpa using .wordArg)), by simp⟩,
    made_namedIfAny (made_boxDecoration? ha)⟩, .named (.call (by simpa using .named hdropdown)),
    by simp⟩

/-! ## Forests -/

/-- Whether all that the widget of a node refers to is within the scope. The kind is open, for a node
may be drawn as a panel whatever its own kind. -/
structure Admits (scope : Scope) (node : Node) : Prop where
  number : ∀ kind, AdmitsNumbers scope ⟨node, kind⟩
  tickSize : scope.number (tickSize (Attributes.of node))
  maxLength : ∀ x, maxLength? (Attributes.of node) = some x → scope.number x
  ticked : node.kind = .toggleBox → scope.setState ∧ scope.entry checkboxState node.stateKey
  chosen : node.kind = .choiceDropdown → scope.setState ∧ scope.entry dropdownState node.stateKey

/-- The scope of everything. -/
def Scope.all : Scope where
  number _ := True
  entry _ _ := True
  setState := True

theorem admits_all (node : Node) : Admits .all node where
  number _ _ := trivial
  tickSize := trivial
  maxLength _ _ := trivial
  ticked _ := ⟨trivial, trivial⟩
  chosen _ := ⟨trivial, trivial⟩

theorem made_panel (ha : AdmitsNumbers scope a) {children : List Code}
    (h : ∀ c ∈ children, Made scope c) : Made scope (panel a children) := by
  refine made_container ha (made_boxDecoration? ha) ?_
  split
  · simp
  · simpa using made_stack h

theorem mem_preorder_self (node : Node) : node ∈ node.preorder := by
  obtain ⟨kind, id, attrs, children⟩ := node
  exact List.mem_cons_self

theorem preorder_eq (node : Node) :
    node.preorder = node :: Node.preorderAll node.children := by
  obtain ⟨kind, id, attrs, children⟩ := node
  rfl

theorem mem_preorderAll {node : Node} {nodes : List Node} :
    node ∈ Node.preorderAll nodes ↔ ∃ root ∈ nodes, node ∈ root.preorder := by
  induction nodes with
  | nil => simp [Node.preorderAll]
  | cons root rest ih => simp [Node.preorderAll, ih]

mutual

/-- **The widget of a node is made of listed source**, if the scope admits the node and all below
it. -/
theorem made_lower (node : Node) (h : ∀ n ∈ node.preorder, Admits scope n) :
    ∀ c ∈ lower node, Made scope c := by
  obtain ⟨kind, id, attrs, children⟩ := node
  have hnode := h _ (mem_preorder_self _)
  have ha := hnode.number kind
  have hbelow : ∀ n ∈ Node.preorderAll children, Admits scope n :=
    fun n hn => h n (List.mem_cons_of_mem _ hn)
  have hchildren : ∀ n ∈ children, AdmitsNumbers scope (Attributes.of n) := fun n hn =>
    (hbelow n (mem_preorderAll.mpr ⟨n, hn, mem_preorder_self n⟩)).number n.kind
  intro c hc
  cases kind with
  | headerBar => simp [lower] at hc
  | label =>
      obtain rfl := Option.some.inj hc
      exact made_place ha (made_label ha)
  | iconAction =>
      obtain rfl := Option.some.inj hc
      exact made_place ha (made_iconAction ha hchildren)
  | textAction =>
      obtain rfl := Option.some.inj hc
      exact made_place ha (made_textAction ha)
  | textInput =>
      obtain rfl := Option.some.inj hc
      exact made_place ha (made_textInput ha hnode.maxLength)
  | toggleBox =>
      obtain rfl := Option.some.inj hc
      exact made_place ha (made_toggleBox ha hnode.tickSize (hnode.ticked rfl).1
        (hnode.ticked rfl).2)
  | choiceDropdown =>
      obtain rfl := Option.some.inj hc
      exact made_place ha (made_choiceDropdown ha (hnode.chosen rfl).1 (hnode.chosen rfl).2)
  | panel =>
      obtain rfl := Option.some.inj hc
      exact made_place ha (made_panel ha (made_lowerAll children hbelow))
  | unknown tag =>
      obtain rfl := Option.some.inj hc
      exact made_place ha (made_container ha (made_boxDecoration? ha) (by simp))

theorem made_lowerAll (nodes : List Node) (h : ∀ n ∈ Node.preorderAll nodes, Admits scope n) :
    ∀ c ∈ lowerAll nodes, Made scope c := by
  cases nodes with
  | nil => simp [lowerAll]
  | cons node rest =>
      simp only [Node.preorderAll, List.forall_mem_append] at h
      intro c hc
      rcases List.mem_append.mp hc with hc | hc
      · exact made_lower node h.1 c (Option.mem_toList.mp hc)
      · exact made_lowerAll rest h.2 c hc

end

theorem made_lowerAsPanel {node : Node} (h : ∀ n ∈ node.preorder, Admits scope n) :
    Made scope (lowerAsPanel node) := by
  have ha := (h _ (mem_preorder_self _)).number .panel
  rw [preorder_eq, List.forall_mem_cons] at h
  exact made_place ha (made_panel ha (made_lowerAll node.children h.2))

end CanvasFlutter.Widget
