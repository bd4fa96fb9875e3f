import CanvasFlutter.Dart.Code
import CanvasFlutter.Dart.Name
import CanvasFlutter.Decimal.Binary
import CanvasFlutter.Widget.Policy

/-!
# `CanvasFlutter.Widget.Lower` — the widget of a node

Each node but a header bar becomes one widget, wrapped in `Align` if the node says how it is
aligned and in `Positioned` otherwise. All attributes come through `Attributes`, so that a missing
or malformed one changes a value and never the shape of the widget.

## Contents
- **Boxes.** `place`, borders, decorations, `container`.
- **Text.** `TextStyle`, `textWidget`, `label`.
- **Actions.** `iconAction`, `textAction`.
- **Inputs.** `textInput`, `toggleBox`, `choiceDropdown`.
- **Forests.** `lower`, `lowerAll`, `lowerAsPanel`.
-/

namespace CanvasFlutter.Widget

open CanvasFlutter.Dart

/-- The map in a page's state that holds what is chosen in dropdowns. -/
def dropdownState : String := "dropdownValues"

/-- The map in a page's state that holds which boxes are ticked. -/
def checkboxState : String := "checkboxStates"

/-! ## Boxes -/

/-- A number as a named argument. -/
def numberArg (name : String) (x : Float) : Code := .named name (.number x)

/-- A constant as a named argument. -/
def wordArg (name source : String) : Code := .named name (.word source)

/-- A truth value as a named argument. -/
def flagArg (name : String) (b : Bool) : Code := wordArg name (if b then "true" else "false")

/-- A widget at the place that its node asks for. -/
def place (a : Attributes) (widget : Code) : Code :=
  match a.ownText? "alignment" with
  | some raw =>
      .call "Align"
        [wordArg "alignment" (Name.alignment raw.toList), .named "child" widget]
  | none =>
      .call "Positioned"
        [numberArg "top" (a.number "top"), numberArg "left" (a.number "left"),
          .named "child" widget]

/-- The line around a box. -/
structure BorderLine where
  color : Text
  width : Float

/-- The line around a node's box, if it has a colour and a width. -/
def borderLine? (a : Attributes) : Option BorderLine :=
  let width := a.number "decoration.border.width"
  match a.paint "decoration.border.color" with
  | .color color => if 0 < width then some ⟨color, width⟩ else none
  | .transparent => none

/-- What a line is drawn with. -/
def BorderLine.args (line : BorderLine) : List Code :=
  [.named "color" (.paint (.color line.color)), numberArg "width" line.width]

/-- The border of a box. -/
def BorderLine.border (line : BorderLine) : Code := .call "Border.all" line.args

/-- The border of a button or an input. -/
def borderSide (a : Attributes) : Code :=
  match borderLine? a with
  | some line => .call "BorderSide" line.args
  | none => .word "BorderSide.none"

/-- Rounded corners. -/
def corners (radius : Float) : Code := .apply "BorderRadius.circular" [.number radius]

/-- A decoration of the given layers; none if nothing would be drawn. -/
def decoration? (fill : Paint) (border : Option BorderLine) (radius : Float) : Option Code :=
  if fill = .transparent ∧ border.isNone then none
  else
    let fillArg := if fill = .transparent then none else some (Code.paint fill)
    let cornersArg := if 0 < radius then some (corners radius) else none
    some (.call "BoxDecoration"
      (Code.namedIfAny "color" fillArg
        ++ Code.namedIfAny "border" (border.map BorderLine.border)
        ++ Code.namedIfAny "borderRadius" cornersArg))

/-- The decoration of a node's box. -/
def boxDecoration? (a : Attributes) : Option Code :=
  decoration? (a.paint "decoration.color") (borderLine? a) (a.number "decoration.borderRadius")

/-- The size of a node's box. -/
def sizeArgs (a : Attributes) : List Code :=
  [numberArg "width" (a.number "width"), numberArg "height" (a.number "height")]

/-- A box of the node's size. -/
def container (a : Attributes) (decoration child : Option Code) : Code :=
  .call "Container"
    (sizeArgs a ++ Code.namedIfAny "decoration" decoration ++ Code.namedIfAny "child" child)

/-- A widget in the middle of its space. -/
def center (child : Code) : Code := .call "Center" [.named "child" child]

/-- Widgets on top of each other. -/
def stack (layers : List Code) : Code := .call "Stack" [.named "children" (.list layers)]

/-! ## Text -/

/-- How text looks. -/
structure TextStyle where
  fontSize : Float
  color : Paint
  weight : Option String
  family : Option String

/-- The text style that a node's attributes ask for. -/
def TextStyle.of (a : Attributes) (sizePath colorPath : String) : TextStyle where
  fontSize := a.number sizePath
  color := a.paint colorPath
  weight := Name.fontWeight? (a.text "fontWeight").toList
  family := a.ownText? "fontFamily"

/-- The source of a text style. -/
def TextStyle.code (style : TextStyle) : Code :=
  .call "TextStyle"
    ([numberArg "fontSize" style.fontSize, .named "color" (.paint style.color)]
      ++ Code.namedIfAny "fontWeight" (style.weight.map Code.word)
      ++ Code.namedIfAny "fontFamily" (style.family.map Code.literal))

/-- A text in a style, with further arguments between the two. -/
def textWidget (content : String) (style : TextStyle) (more : List Code) : Code :=
  .call "Text" (.literal content :: more ++ [.named "style" style.code])

/-- The text of a label, boxed if the label is filled. -/
def label (a : Attributes) : Code :=
  let align := Name.textAlign (a.text "textAlign").toList "TextAlign.start"
  let content :=
    textWidget (a.text "text") (TextStyle.of a "fontSize" "color") [wordArg "textAlign" align]
  match a.paint "decoration.color" with
  | .color _ => container a (boxDecoration? a) (some (center content))
  | .transparent => content

/-! ## Actions -/

/-- A handler that opens a route. -/
def navigate (route : String) : Code :=
  .closure "()" [.apply "Navigator.pushNamed" [.word "context", .literal route]]

/-- A label drawn over an icon button, in its own colour or else in the button's overlay colour. -/
def overlayLabel (overlayColor : Paint) (child : Node) : Code :=
  let a := Attributes.of child
  let style :=
    { TextStyle.of a "fontSize" "color" with
      color := (a.ownPaint? "color").getD overlayColor }
  let content := textWidget (a.text "text") style []
  if (a.ownText? "alignment").isSome || child.hasAttr "top" || child.hasAttr "left" then
    place a content
  else center content

/-- A button with an icon. -/
def iconAction (a : Attributes) : Code :=
  let icon :=
    Code.call "Icon"
      [.icon (Name.identifier (a.text "icon").toList "help_outline".toList),
        .named "color" (.paint (a.paint "iconColor")),
        numberArg "size" (a.number "iconSize")]
  let button :=
    Code.call "IconButton"
      (Code.namedIfAny "tooltip" ((a.ownText? "tooltip").map Code.literal)
        ++ [.named "icon" icon, .named "onPressed" (navigate (a.text "navigateTo"))])
  let overlays :=
    (a.node.children.filter (·.kind = .label)).map (overlayLabel (a.paint "overlayColor"))
  let child := if overlays.isEmpty then button else stack (center button :: overlays)
  container a (boxDecoration? a) (some child)

/-- A button with a text. -/
def textAction (a : Attributes) : Code :=
  let shape :=
    Code.call "RoundedRectangleBorder"
      [.named "borderRadius" (corners (a.number "decoration.borderRadius")),
        .named "side" (borderSide a)]
  let style :=
    Code.call "TextButton.styleFrom"
      [.named "backgroundColor" (.paint (a.paint "decoration.color")),
        wordArg "padding" "EdgeInsets.zero", .named "shape" shape]
  let onPressed :=
    match a.ownText? "navigateTo" with
    | some route => navigate route
    | none => .closure "()" []
  let align := Name.textAlign (a.text "textAlign").toList "TextAlign.center"
  let content :=
    textWidget (a.text "text") (TextStyle.of a "fontSize" "color")
      [wordArg "textAlign" align, wordArg "softWrap" "true",
        wordArg "overflow" "TextOverflow.visible"]
  let button :=
    Code.call "TextButton"
      [.named "style" style, .named "onPressed" onPressed, .named "child" content]
  .call "SizedBox" (sizeArgs a ++ [.named "child" button])

/-! ## Inputs -/

/-- The longest text that an input takes: the whole part of a number of at least one. -/
def maxLength? (a : Attributes) : Option Float :=
  match a.node.number? "maxLength" with
  | some x => if 1 ≤ x then some (Decimal.wholePart x) else none
  | none => none

/-- The frame of a text input. -/
def inputBorder (a : Attributes) : Code :=
  if Text.equalsIgnoringCase (a.text "borderStyle").toList "underline".toList then
    .call "UnderlineInputBorder" [.named "borderSide" (borderSide a)]
  else
    .call "OutlineInputBorder"
      [.named "borderRadius" (corners (a.number "decoration.borderRadius")),
        .named "borderSide" (borderSide a)]

/-- The decoration of a text input. -/
def inputDecoration (a : Attributes) : Code :=
  let colorStyle (path : String) := Code.call "TextStyle" [.named "color" (.paint (a.paint path))]
  let border := inputBorder a
  let fillArgs :=
    match a.paint "decoration.color" with
    | .transparent => []
    | fill => [wordArg "filled" "true", .named "fillColor" (.paint fill)]
  .call "InputDecoration"
    (Code.namedIfAny "hintText" ((a.ownText? "hintText").map Code.literal)
      ++ Code.namedIfAny "labelText" ((a.ownText? "labelText").map Code.literal)
      ++ [.named "hintStyle" (colorStyle "hintColor"),
        .named "labelStyle" (colorStyle "labelColor")]
      ++ fillArgs
      ++ [.named "border" border, .named "enabledBorder" border])

/-- A field that text is typed into; several lines fill their box, one line has its own height. -/
def textInput (a : Attributes) : Code :=
  let inputType := (a.text "inputType").toList
  let multiline := Name.key inputType = "multiline"
  let linesArgs :=
    if multiline then [wordArg "maxLines" "null", wordArg "expands" "true"]
    else [wordArg "maxLines" "1", flagArg "obscureText" (a.flag "obscureText")]
  let field :=
    Code.call "TextField"
      ([flagArg "enabled" (a.flag "enabled"),
          wordArg "keyboardType" (Name.keyboardType inputType)]
        ++ linesArgs
        ++ Code.namedIfAny "maxLength" ((maxLength? a).map Code.number)
        ++ [.named "style" (TextStyle.of a "fontSize" "color").code,
          .named "decoration" (inputDecoration a),
          .named "onChanged" (.closure "(value)" [])])
  let heightArg := if multiline then [numberArg "height" (a.number "height")] else []
  .call "SizedBox" (numberArg "width" (a.number "width") :: heightArg ++ [.named "child" field])

/-- Where the label of a box to tick stands. -/
inductive Side where
  | left
  | right
  | top
  | bottom
  deriving DecidableEq, Repr

/-- The side that a word names; the right one if it names none. -/
def Side.parse (raw : Text) : Side :=
  match Name.key raw with
  | "left" => .left
  | "top" => .top
  | "bottom" => .bottom
  | _ => .right

/-- A box and its label side by side. -/
def beside (side : Side) (gap : Float) (label box : Code) : Code :=
  let row (dimension flex : String) (children : Code → List Code) :=
    Code.call flex
      [wordArg "mainAxisSize" "MainAxisSize.min",
        .named "children" (.list (children (.apply "SizedBox" [numberArg dimension gap])))]
  match side with
  | .left => row "width" "Row" fun spacer => [label, spacer, box]
  | .right => row "width" "Row" fun spacer => [box, spacer, label]
  | .top => row "height" "Column" fun spacer => [label, spacer, box]
  | .bottom => row "height" "Column" fun spacer => [box, spacer, label]

/-- The size of the tick in a box. -/
def tickSize (a : Attributes) : Float :=
  let width := a.number "width"
  let height := a.number "height"
  Decimal.roundHalfAway ((if height < width then height else width) * 0.7)

/-- A handler that changes the page's state. -/
def setState (change : Code) : Code := .apply "setState" [.closure "()" [change]]

/-- A box to tick. -/
def toggleBox (a : Attributes) : Code :=
  let entry := Code.entry checkboxState a.node.stateKey
  let value := Code.orFalse entry
  let radius := a.number "decoration.borderRadius"
  let shapeArg :=
    if 50 ≤ radius then wordArg "shape" "BoxShape.circle"
    else .named "borderRadius" (corners radius)
  let fill :=
    Code.choice value (.paint (a.paint "activeColor")) (.paint .transparent)
  let decoration :=
    Code.call "BoxDecoration"
      (.named "color" fill
        :: Code.namedIfAny "border" ((borderLine? a).map BorderLine.border) ++ [shapeArg])
  let tick :=
    Code.call "Icon"
      [.word "Icons.check", numberArg "size" (tickSize a),
        .named "color" (.paint (a.paint "checkColor"))]
  let box :=
    Code.call "Container"
      (sizeArgs a
        ++ [.named "decoration" decoration,
          .named "child" (.choice value tick (.word "null"))])
  let content :=
    match a.ownText? "label" with
    | none => box
    | some text =>
        beside (Side.parse (a.text "labelPosition").toList) (a.number "labelGap")
          (textWidget text (TextStyle.of a "labelFontSize" "labelColor") []) box
  let detector :=
    Code.call "GestureDetector"
      [.named "onTap" (.closure "()" [setState (.assign entry (.negated value))]),
        .named "child" content]
  let scale := a.number "scale"
  if 0 < scale ∧ scale ≠ 1 then
    .call "Transform.scale"
      [numberArg "scale" scale, wordArg "alignment" "Alignment.topLeft", .named "child" detector]
  else detector

/-- A list to choose from. A value that is not among the options is shown as no choice. -/
def choiceDropdown (a : Attributes) : Code :=
  let current := Code.entry dropdownState a.node.stateKey
  let options := Code.strings (a.node.list "options")
  let item :=
    Code.call "DropdownMenuItem<String>"
      [wordArg "value" "value",
        .named "child" (.call "Text" [.word "value", wordArg "overflow" "TextOverflow.ellipsis"])]
  let items :=
    Code.method (.method options "map" [.closure "(String value)" [.result item]]) "toList" []
  let onChanged :=
    Code.closure "(String? newValue)"
      [.word "if (newValue == null) return", setState (.assign current (.word "newValue"))]
  let hint := (a.ownText? "hintText").map fun hint => Code.call "Text" [.literal hint]
  let dropdown :=
    Code.call "DropdownButton<String>"
      ([.named "value" (.choice (.method options "contains" [current]) current (.word "null")),
          wordArg "isExpanded" "true"]
        ++ Code.namedIfAny "hint" hint
        ++ [.named "dropdownColor" (.paint (a.paint "dropdownColor")),
          .named "style" (TextStyle.of a "fontSize" "color").code,
          .named "items" items, .named "onChanged" onChanged])
  .call "Container"
    (sizeArgs a
      ++ [.named "padding" (.apply "EdgeInsets.symmetric" [wordArg "horizontal" "8"])]
      ++ Code.namedIfAny "decoration" (boxDecoration? a)
      ++ [.named "child" (.call "DropdownButtonHideUnderline" [.named "child" dropdown])])

/-! ## Forests -/

/-- A box with widgets in it. -/
def panel (a : Attributes) (children : List Code) : Code :=
  container a (boxDecoration? a) (if children.isEmpty then none else some (stack children))

mutual

/-- The widget of a node; a header bar has none. -/
def lower : Node → Option Code
  | ⟨kind, id, attrs, children⟩ =>
      let a := Attributes.of ⟨kind, id, attrs, children⟩
      match kind with
      | .headerBar => none
      | .label => some (place a (label a))
      | .iconAction => some (place a (iconAction a))
      | .textAction => some (place a (textAction a))
      | .textInput => some (place a (textInput a))
      | .toggleBox => some (place a (toggleBox a))
      | .choiceDropdown => some (place a (choiceDropdown a))
      | .panel => some (place a (panel a (lowerAll children)))
      | .unknown _ => some (place a (container a (boxDecoration? a) none))

/-- The widgets of a forest, in order. -/
def lowerAll : List Node → List Code
  | [] => []
  | node :: rest => (lower node).toList ++ lowerAll rest

end

/-- The widget of a node drawn as a panel, whatever its kind. -/
def lowerAsPanel (node : Node) : Code :=
  let a : Attributes := ⟨node, .panel⟩
  place a (panel a (lowerAll node.children))

/-- Every node but a header bar has a widget. -/
theorem lower_eq_none_iff (node : Node) : lower node = none ↔ node.kind = .headerBar := by
  obtain ⟨kind, id, attrs, children⟩ := node
  cases kind <;> simp [lower]

end CanvasFlutter.Widget
