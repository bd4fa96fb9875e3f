import CanvasFlutter.Proofs.PageSource.Vocabulary

namespace CanvasFlutter

/-!
# `CanvasFlutter.Proofs.PageSource.Blank` — texts reach strings only

Two forests that differ in nothing but what their texts say give pages that differ in nothing but
string literals. Nodes, trees and tokens are compared with all that blanked out.

## Contents
- **Nodes.** `Node.hideTexts`, and what the accessors give for a node without its texts.
- **Trees.** `Code.blank`, one lemma for each widget that shows a text, and `blank_lower`.
- **Pages.** `map_blank_tokens?`: the tokens of a page but for its strings.
- **Both.** `harmless_and_map_blank`.
-/

open Dart Lexer Widget

/-! ## Nodes -/

namespace Node

/-- An attribute without what it says, if it is the text of a node. -/
def hideText : String × Json → String × Json
  | (name, .string s) => (name, .string (if name = "text" then "" else s))
  | (name, v) => (name, v)

mutual

/-- A node whose texts, and all below it, say nothing. -/
def hideTexts : Node → Node
  | ⟨kind, id, attrs, children⟩ => ⟨kind, id, attrs.map hideText, hideTextsAll children⟩

/-- Nodes whose texts say nothing. -/
def hideTextsAll : List Node → List Node
  | [] => []
  | node :: rest => hideTexts node :: hideTextsAll rest

end

theorem hideTextsAll_eq_map (nodes : List Node) : hideTextsAll nodes = nodes.map hideTexts := by
  induction nodes with
  | nil => rfl
  | cons node rest ih => simp [hideTextsAll, ih]

@[simp] theorem kind_hideTexts (node : Node) : node.hideTexts.kind = node.kind := by
  obtain ⟨kind, id, attrs, children⟩ := node
  rfl

@[simp] theorem id_hideTexts (node : Node) : node.hideTexts.id = node.id := by
  obtain ⟨kind, id, attrs, children⟩ := node
  rfl

@[simp] theorem stateKey_hideTexts (node : Node) : node.hideTexts.stateKey = node.stateKey := by
  rw [stateKey, id_hideTexts, stateKey]

@[simp] theorem children_hideTexts (node : Node) :
    node.hideTexts.children = node.children.map hideTexts := by
  obtain ⟨kind, id, attrs, children⟩ := node
  exact hideTextsAll_eq_map children

theorem attrs_hideTexts (node : Node) : node.hideTexts.attrs = node.attrs.map hideText := by
  obtain ⟨kind, id, attrs, children⟩ := node
  rfl

theorem member?_hideText (name : String) (attrs : List (String × Json)) :
    Json.member? name (attrs.map hideText)
      = (Json.member? name attrs).map fun v => (hideText (name, v)).2 := by
  induction attrs with
  | nil => rfl
  | cons a rest ih =>
      obtain ⟨other, v⟩ := a
      have hname : (hideText (other, v)).1 = other := by cases v <;> rfl
      rw [List.map_cons, ← Prod.eta (hideText (other, v)), hname, Json.member?_cons,
        Json.member?_cons, ih]
      split
      · next heq => rw [heq, Option.map_some]
      · rfl

/-- Only the path of a text leads to what was hidden. -/
theorem follow?_hideText {parts : List String} (h : parts ≠ ["text"])
    (attrs : List (String × Json)) : follow? parts (attrs.map hideText) = follow? parts attrs := by
  match parts with
  | [] => rfl
  | [part] =>
      have hpart : part ≠ "text" := fun heq => h (heq ▸ rfl)
      rw [follow?, follow?, member?_hideText]
      cases Json.member? part attrs with
      | none => rfl
      | some v => cases v <;> simp [hideText, hpart]
  | part :: next :: rest =>
      rw [follow?, follow?, member?_hideText]
      · cases Json.member? part attrs with
        | none => rfl
        | some v => cases v <;> rfl
      · simp
      · simp

theorem eq_of_pathParts {path : String} (h : pathParts path = ["text"]) : path = "text" := by
  have hsplit : path.toList.splitOn '.' = ["text".toList] := by
    have hlists := congrArg (List.map String.toList) h
    simpa [pathParts] using hlists
  have hwhole : ['.'].intercalate (path.toList.splitOn '.') = path.toList :=
    List.intercalate_splitOn '.'
  rw [hsplit] at hwhole
  exact String.toList_inj.mp (by simpa [List.intercalate] using hwhole.symm)

mutual

theorem preorder_hideTexts (node : Node) :
    preorder node.hideTexts = (preorder node).map hideTexts := by
  obtain ⟨kind, id, attrs, children⟩ := node
  rw [hideTexts, preorder, preorder, preorderAll_hideTextsAll children, List.map_cons, hideTexts]

theorem preorderAll_hideTextsAll (nodes : List Node) :
    preorderAll (hideTextsAll nodes) = (preorderAll nodes).map hideTexts := by
  cases nodes with
  | nil => rfl
  | cons node rest =>
      rw [hideTextsAll, preorderAll, preorderAll, preorder_hideTexts node,
        preorderAll_hideTextsAll rest, List.map_append]

end

variable {node : Node} {path : String}

theorem attr?_hideTexts (h : path ≠ "text") : node.hideTexts.attr? path = node.attr? path := by
  rw [attr?, attrs_hideTexts, follow?_hideText fun heq => h (eq_of_pathParts heq), ← attr?.eq_def]

@[simp] theorem hasAttr_hideTexts (h : path ≠ "text") :
    node.hideTexts.hasAttr path = node.hasAttr path := by
  rw [hasAttr, attr?_hideTexts h, hasAttr]

@[simp] theorem text?_hideTexts (h : path ≠ "text") :
    node.hideTexts.text? path = node.text? path := by
  rw [text?, attr?_hideTexts h, text?]

@[simp] theorem number?_hideTexts (h : path ≠ "text") :
    node.hideTexts.number? path = node.number? path := by
  rw [number?, attr?_hideTexts h, ← number?.eq_def]

@[simp] theorem flag?_hideTexts (h : path ≠ "text") :
    node.hideTexts.flag? path = node.flag? path := by
  rw [flag?, attr?_hideTexts h, ← flag?.eq_def]

@[simp] theorem list_hideTexts (h : path ≠ "text") :
    node.hideTexts.list path = node.list path := by
  rw [list, attr?_hideTexts h, ← list.eq_def]

end Node

namespace Widget.Attributes

/-- A node's attributes without its texts. -/
def hide (a : Attributes) : Attributes := ⟨a.node.hideTexts, a.kind⟩

theorem of_hideTexts (node : Node) : of node.hideTexts = (of node).hide := by
  rw [of, Node.kind_hideTexts, hide, of]

variable {a : Attributes} {path : String}

@[simp] theorem node_hide : a.hide.node = a.node.hideTexts := rfl

@[simp] theorem kind_hide : a.hide.kind = a.kind := rfl

@[simp] theorem number_hide (h : path ≠ "text") : a.hide.number path = a.number path := by
  rw [number, node_hide, kind_hide, Node.number?_hideTexts h, ← number.eq_def]

@[simp] theorem text_hide (h : path ≠ "text") : a.hide.text path = a.text path := by
  rw [text, node_hide, kind_hide, Node.text?_hideTexts h, ← text.eq_def]

@[simp] theorem flag_hide (h : path ≠ "text") : a.hide.flag path = a.flag path := by
  rw [flag, node_hide, kind_hide, Node.flag?_hideTexts h, ← flag.eq_def]

@[simp] theorem ownText?_hide (h : path ≠ "text") : a.hide.ownText? path = a.ownText? path := by
  rw [ownText?, node_hide, Node.text?_hideTexts h, ← ownText?.eq_def]

@[simp] theorem ownPaint?_hide (h : path ≠ "text") :
    a.hide.ownPaint? path = a.ownPaint? path := by
  rw [ownPaint?, node_hide, Node.text?_hideTexts h, ← ownPaint?.eq_def]

@[simp] theorem paint_hide (h : path ≠ "text") : a.hide.paint path = a.paint path := by
  rw [paint, kind_hide, ownPaint?_hide h, ← paint.eq_def]

end Widget.Attributes

/-! ## Trees -/

namespace Dart

namespace Code

mutual

/-- A tree whose literals say nothing. -/
def blank : Code → Code
  | .literal _ => .literal ""
  | .strings texts => .strings (texts.map fun _ => "")
  | .named name value => .named name (blank value)
  | .apply callee args => .apply callee (blankAll args)
  | .method receiver name args => .method (blank receiver) name (blankAll args)
  | .orFalse value => .orFalse (blank value)
  | .negated value => .negated (blank value)
  | .choice condition yes no => .choice (blank condition) (blank yes) (blank no)
  | .assign target value => .assign (blank target) (blank value)
  | .result value => .result (blank value)
  | .call callee args => .call callee (blankAll args)
  | .list items => .list (blankAll items)
  | .closure parameters body => .closure parameters (blankAll body)
  | c => c

/-- Trees whose literals say nothing. -/
def blankAll : List Code → List Code
  | [] => []
  | c :: rest => blank c :: blankAll rest

end

theorem blankAll_eq_map (cs : List Code) : blankAll cs = cs.map blank := by
  induction cs with
  | nil => rfl
  | cons c rest ih => simp [blankAll, ih]

end Code

/-- A piece that says nothing if it is a literal. -/
def Piece.blank : Piece → Piece
  | .literal _ => .literal ""
  | p => p

/-- A token that says nothing if it is a string. -/
def Token.blank : Token → Token
  | .string _ => .string []
  | t => t

theorem Piece.map_blank_commas (rows : List (List Piece)) :
    (commas rows).map blank = commas (rows.map (·.map blank)) := by
  induction rows with
  | nil => rfl
  | cons row rows ih =>
      cases rows with
      | nil => rfl
      | cons next rows =>
          simp only [commas, List.map_append, List.map_cons] at ih ⊢
          rw [ih]
          rfl

theorem Piece.map_blank_parts (sign : String) (rows : List (List Piece)) :
    (parts sign rows).map blank = parts sign (rows.map (·.map blank)) := by
  induction rows with
  | nil => rfl
  | cons row rows ih =>
      simp only [parts, List.flatMap_cons, List.map_append, List.map_cons] at ih ⊢
      rw [ih]
      rfl

theorem Piece.map_blank_tokens (p : Piece) :
    p.blank.tokens.map Token.blank = p.tokens.map Token.blank := by
  cases p <;> rfl

namespace Code

mutual

theorem pieces_blank (c : Code) : c.blank.pieces = c.pieces.map Piece.blank := by
  cases c with
  | strings texts =>
      simp [blank, pieces, Piece.map_blank_commas, Piece.blank, Function.comp_def]
  | named name value => simp [blank, pieces, pieces_blank value, Piece.blank]
  | apply callee args =>
      simp [blank, pieces, piecesAll_blankAll args, Piece.map_blank_commas, Piece.blank]
  | method receiver name args =>
      simp [blank, pieces, pieces_blank receiver, piecesAll_blankAll args, Piece.map_blank_commas,
        Piece.blank]
  | orFalse value => simp [blank, pieces, pieces_blank value, Piece.blank]
  | negated value => simp [blank, pieces, pieces_blank value, Piece.blank]
  | choice condition yes no =>
      simp [blank, pieces, pieces_blank condition, pieces_blank yes, pieces_blank no, Piece.blank]
  | assign target value =>
      simp [blank, pieces, pieces_blank target, pieces_blank value, Piece.blank]
  | result value => simp [blank, pieces, pieces_blank value, Piece.blank]
  | call callee args =>
      simp [blank, pieces, piecesAll_blankAll args, Piece.map_blank_parts, Piece.blank]
  | list items =>
      simp [blank, pieces, piecesAll_blankAll items, Piece.map_blank_parts, Piece.blank]
  | closure parameters body =>
      simp [blank, pieces, piecesAll_blankAll body, Piece.map_blank_parts, Piece.blank]
  | _ => rfl

theorem piecesAll_blankAll (cs : List Code) :
    piecesAll (blankAll cs) = (piecesAll cs).map (·.map Piece.blank) := by
  cases cs with
  | nil => rfl
  | cons c rest => simp [blankAll, piecesAll, pieces_blank c, piecesAll_blankAll rest]

end

/-- The tokens of trees that are alike but for their literals. -/
theorem map_blank_tokens {c d : Code} (h : c.blank = d.blank) :
    c.tokens.map Token.blank = d.tokens.map Token.blank := by
  have hpieces : ∀ ps : List Piece, (ps.map Piece.blank).flatMap (·.tokens.map Token.blank)
      = (ps.flatMap Piece.tokens).map Token.blank := by
    intro ps
    induction ps with
    | nil => rfl
    | cons p ps ih => simp [Piece.map_blank_tokens, ih]
  rw [tokens, tokens, ← hpieces, ← hpieces, ← pieces_blank, ← pieces_blank, h]

end Code

end Dart

namespace Widget

/-- What is put around a widget does not depend on texts. -/
theorem blank_place (a : Attributes) {widget other : Code} (h : widget.blank = other.blank) :
    (place a.hide widget).blank = (place a other).blank := by
  have halign : a.hide.ownText? "alignment" = a.ownText? "alignment" := by simp
  rw [place, place, halign]
  split
  · simp [Code.blank, Code.blankAll, h, wordArg]
  · simp [Code.blank, Code.blankAll, h, numberArg]

theorem borderLine?_hide (a : Attributes) : borderLine? a.hide = borderLine? a := by
  simp [borderLine?]

theorem sizeArgs_hide (a : Attributes) : sizeArgs a.hide = sizeArgs a := by
  simp [sizeArgs]

theorem borderSide_hide (a : Attributes) : borderSide a.hide = borderSide a := by
  rw [borderSide, borderLine?_hide, ← borderSide.eq_def]

theorem boxDecoration?_hide (a : Attributes) : boxDecoration? a.hide = boxDecoration? a := by
  simp [boxDecoration?, borderLine?_hide]

theorem container_hide (a : Attributes) (decoration child : Option Code) :
    container a.hide decoration child = container a decoration child := by
  rw [container, sizeArgs_hide, ← container.eq_def]

theorem blank_call {callee : String} {args others : List Code}
    (h : args.map Code.blank = others.map Code.blank) :
    (Code.call callee args).blank = (Code.call callee others).blank := by
  rw [Code.blank, Code.blank, Code.blankAll_eq_map, Code.blankAll_eq_map, h]

theorem blank_call_last {callee : String} (front : List Code) {last other : Code}
    (h : last.blank = other.blank) :
    (Code.call callee (front ++ [last])).blank = (Code.call callee (front ++ [other])).blank :=
  blank_call (by simp [h])

theorem blank_named (name : String) {value other : Code} (h : value.blank = other.blank) :
    (Code.named name value).blank = (Code.named name other).blank := by
  rw [Code.blank, Code.blank, h]

theorem blank_container (a : Attributes) (decoration : Option Code) {child other : Code}
    (h : child.blank = other.blank) :
    (container a decoration (some child)).blank = (container a decoration (some other)).blank :=
  blank_call_last _ (blank_named "child" h)

theorem blank_center {child other : Code} (h : child.blank = other.blank) :
    (center child).blank = (center other).blank :=
  blank_call_last [] (blank_named "child" h)

theorem blank_stack {layers others : List Code}
    (h : layers.map Code.blank = others.map Code.blank) :
    (stack layers).blank = (stack others).blank := by
  refine blank_call_last [] (blank_named "children" ?_)
  rw [Code.blank, Code.blank, Code.blankAll_eq_map, Code.blankAll_eq_map, h]

theorem textStyle_hide (a : Attributes) {sizePath colorPath : String} (hsize : sizePath ≠ "text")
    (hcolor : colorPath ≠ "text") :
    TextStyle.of a.hide sizePath colorPath = TextStyle.of a sizePath colorPath := by
  simp [TextStyle.of, hsize, hcolor]

theorem bodyStyle_hide (a : Attributes) :
    TextStyle.of a.hide "fontSize" "color" = TextStyle.of a "fontSize" "color" :=
  textStyle_hide a (by simp) (by simp)

theorem blank_textWidget (content other : String) (style : TextStyle) (more : List Code) :
    (textWidget content style more).blank = (textWidget other style more).blank := rfl

theorem blank_label (a : Attributes) : (label a.hide).blank = (label a).blank := by
  have hfill : a.hide.paint "decoration.color" = a.paint "decoration.color" := by simp
  have halign : a.hide.text "textAlign" = a.text "textAlign" := by simp
  rw [label, label, bodyStyle_hide, hfill, halign]
  split
  · rw [boxDecoration?_hide, container_hide]
    exact blank_container _ _ (blank_center (blank_textWidget ..))
  · exact blank_textWidget ..

theorem blank_overlayLabel (overlayColor : Paint) (child : Node) :
    (overlayLabel overlayColor child.hideTexts).blank = (overlayLabel overlayColor child).blank := by
  have halign : (Attributes.of child).hide.ownText? "alignment"
      = (Attributes.of child).ownText? "alignment" := by simp
  have htop : child.hideTexts.hasAttr "top" = child.hasAttr "top" := by simp
  have hleft : child.hideTexts.hasAttr "left" = child.hasAttr "left" := by simp
  have hcolor : (Attributes.of child).hide.ownPaint? "color"
      = (Attributes.of child).ownPaint? "color" := by simp
  rw [overlayLabel, overlayLabel, Attributes.of_hideTexts, bodyStyle_hide, halign, htop, hleft,
    hcolor]
  split
  · exact blank_place _ (blank_textWidget ..)
  · exact blank_center (blank_textWidget ..)

theorem blank_iconAction (a : Attributes) : (iconAction a.hide).blank = (iconAction a).blank := by
  have hicon : a.hide.text "icon" = a.text "icon" := by simp
  have hcolor : a.hide.paint "iconColor" = a.paint "iconColor" := by simp
  have hsize : a.hide.number "iconSize" = a.number "iconSize" := by simp
  have htooltip : a.hide.ownText? "tooltip" = a.ownText? "tooltip" := by simp
  have hroute : a.hide.text "navigateTo" = a.text "navigateTo" := by simp
  have hoverlay : a.hide.paint "overlayColor" = a.paint "overlayColor" := by simp
  have hlabels : a.hide.node.children.filter (·.kind = .label)
      = (a.node.children.filter (·.kind = .label)).map Node.hideTexts := by
    simp [List.filter_map, Function.comp_def]
  have hoverlays : ∀ nodes : List Node,
      ((nodes.map Node.hideTexts).map (overlayLabel (a.paint "overlayColor"))).map Code.blank
        = (nodes.map (overlayLabel (a.paint "overlayColor"))).map Code.blank := by
    simp [blank_overlayLabel]
  rw [iconAction, iconAction, hicon, hcolor, hsize, htooltip, hroute, hoverlay, hlabels,
    boxDecoration?_hide, container_hide]
  refine blank_container _ _ ?_
  simp only [List.isEmpty_map]
  split
  · rfl
  · refine blank_stack ?_
    rw [List.map_cons, List.map_cons, hoverlays]

theorem blank_textAction (a : Attributes) : (textAction a.hide).blank = (textAction a).blank := by
  have hradius : a.hide.number "decoration.borderRadius" = a.number "decoration.borderRadius" := by
    simp
  have hfill : a.hide.paint "decoration.color" = a.paint "decoration.color" := by simp
  have hroute : a.hide.ownText? "navigateTo" = a.ownText? "navigateTo" := by simp
  have halign : a.hide.text "textAlign" = a.text "textAlign" := by simp
  rw [textAction, textAction, sizeArgs_hide, borderSide_hide, hradius, hfill, hroute, halign, bodyStyle_hide]
  exact blank_call_last _ (blank_named "child" (blank_call_last [_, _] (blank_named "child"
    (blank_textWidget ..))))

theorem inputBorder_hide (a : Attributes) : inputBorder a.hide = inputBorder a := by
  have hstyle : a.hide.text "borderStyle" = a.text "borderStyle" := by simp
  have hradius : a.hide.number "decoration.borderRadius" = a.number "decoration.borderRadius" := by
    simp
  rw [inputBorder, hstyle, hradius, borderSide_hide, ← inputBorder.eq_def]

theorem inputDecoration_hide (a : Attributes) : inputDecoration a.hide = inputDecoration a := by
  have hhint : a.hide.ownText? "hintText" = a.ownText? "hintText" := by simp
  have hlabel : a.hide.ownText? "labelText" = a.ownText? "labelText" := by simp
  have hhintColor : a.hide.paint "hintColor" = a.paint "hintColor" := by simp
  have hlabelColor : a.hide.paint "labelColor" = a.paint "labelColor" := by simp
  have hfill : a.hide.paint "decoration.color" = a.paint "decoration.color" := by simp
  unfold inputDecoration
  dsimp only
  rw [hhint, hlabel, hhintColor, hlabelColor, hfill, inputBorder_hide]

theorem textInput_hide (a : Attributes) : textInput a.hide = textInput a := by
  have htype : a.hide.text "inputType" = a.text "inputType" := by simp
  have hobscure : a.hide.flag "obscureText" = a.flag "obscureText" := by simp
  have henabled : a.hide.flag "enabled" = a.flag "enabled" := by simp
  have hlength : maxLength? a.hide = maxLength? a := by simp [maxLength?]
  have hheight : a.hide.number "height" = a.number "height" := by simp
  have hwidth : a.hide.number "width" = a.number "width" := by simp
  rw [textInput, htype, hobscure, henabled, hlength, hheight, hwidth, inputDecoration_hide,
    bodyStyle_hide, ← textInput.eq_def]

theorem toggleBox_hide (a : Attributes) : toggleBox a.hide = toggleBox a := by
  have hkey : a.hide.node.stateKey = a.node.stateKey := by simp
  have hradius : a.hide.number "decoration.borderRadius" = a.number "decoration.borderRadius" := by
    simp
  have hactive : a.hide.paint "activeColor" = a.paint "activeColor" := by simp
  have hcheck : a.hide.paint "checkColor" = a.paint "checkColor" := by simp
  have htick : tickSize a.hide = tickSize a := by simp [tickSize]
  have hlabel : a.hide.ownText? "label" = a.ownText? "label" := by simp
  have hside : a.hide.text "labelPosition" = a.text "labelPosition" := by simp
  have hgap : a.hide.number "labelGap" = a.number "labelGap" := by simp
  have hstyle := textStyle_hide a (show "labelFontSize" ≠ "text" by simp)
    (show "labelColor" ≠ "text" by simp)
  have hscale : a.hide.number "scale" = a.number "scale" := by simp
  rw [toggleBox, hkey, hradius, hactive, hcheck, htick, hlabel, hside, hgap, hstyle, hscale,
    sizeArgs_hide, borderLine?_hide, ← toggleBox.eq_def]

theorem choiceDropdown_hide (a : Attributes) : choiceDropdown a.hide = choiceDropdown a := by
  have hkey : a.hide.node.stateKey = a.node.stateKey := by simp
  have hoptions : a.hide.node.list "options" = a.node.list "options" := by simp
  have hhint : a.hide.ownText? "hintText" = a.ownText? "hintText" := by simp
  have hcolor : a.hide.paint "dropdownColor" = a.paint "dropdownColor" := by simp
  rw [choiceDropdown, hkey, hoptions, hhint, hcolor, sizeArgs_hide, boxDecoration?_hide, bodyStyle_hide,
    ← choiceDropdown.eq_def]

/-- A panel shows no text of its own. -/
theorem blank_panel (a : Attributes) {children others : List Code}
    (h : children.map Code.blank = others.map Code.blank) :
    (panel a.hide children).blank = (panel a others).blank := by
  have hempty : children.isEmpty = others.isEmpty := by
    have hlength := congrArg List.isEmpty h
    simpa using hlength
  rw [panel, panel, boxDecoration?_hide, container_hide, hempty]
  split
  · rfl
  · exact blank_container _ _ (blank_stack h)

mutual

/-- **The widget of a node is the same but for its literals**, whatever its texts say. -/
theorem blank_lower (node : Node) :
    (lower node.hideTexts).map Code.blank = (lower node).map Code.blank := by
  obtain ⟨kind, id, attrs, children⟩ := node
  have hof := Attributes.of_hideTexts ⟨kind, id, attrs, children⟩
  rw [Node.hideTexts] at hof ⊢
  have hunknown : ∀ a : Attributes, (place a.hide (container a.hide (boxDecoration? a.hide) none)).blank
      = (place a (container a (boxDecoration? a) none)).blank := by
    intro a
    rw [boxDecoration?_hide, container_hide]
    exact blank_place a rfl
  cases kind with
  | headerBar => rfl
  | label => simpa only [lower, hof, Option.map_some] using congrArg some (blank_place _ (blank_label _))
  | iconAction => simpa only [lower, hof, Option.map_some] using congrArg some (blank_place _ (blank_iconAction _))
  | textAction => simpa only [lower, hof, Option.map_some] using congrArg some (blank_place _ (blank_textAction _))
  | textInput =>
      simpa only [lower, hof, Option.map_some] using congrArg some (blank_place _ (by rw [textInput_hide]))
  | toggleBox =>
      simpa only [lower, hof, Option.map_some] using congrArg some (blank_place _ (by rw [toggleBox_hide]))
  | choiceDropdown =>
      simpa only [lower, hof, Option.map_some] using congrArg some (blank_place _ (by rw [choiceDropdown_hide]))
  | panel =>
      simpa only [lower, hof, Option.map_some] using
        congrArg some (blank_place _ (blank_panel _ (blank_lowerAll children)))
  | unknown tag => simpa only [lower, hof, Option.map_some] using congrArg some (hunknown _)

theorem blank_lowerAll (nodes : List Node) :
    (lowerAll (Node.hideTextsAll nodes)).map Code.blank = (lowerAll nodes).map Code.blank := by
  cases nodes with
  | nil => rfl
  | cons node rest =>
      have hnode := congrArg Option.toList (blank_lower node)
      rw [Option.toList_map, Option.toList_map] at hnode
      rw [Node.hideTextsAll, lowerAll, lowerAll, List.map_append, List.map_append, hnode,
        blank_lowerAll rest]

end

theorem blank_lowerAsPanel (node : Node) :
    (lowerAsPanel node.hideTexts).blank = (lowerAsPanel node).blank := by
  have hchildren := blank_lowerAll node.children
  rw [Node.hideTextsAll_eq_map, ← Node.children_hideTexts] at hchildren
  have hpanel := blank_panel ⟨node, .panel⟩ hchildren
  exact blank_place ⟨node, .panel⟩ hpanel

theorem blank_topWidget (node : Node) :
    (topWidget node.hideTexts).blank = (topWidget node).blank := by
  have hlower := blank_lower node
  rw [topWidget, topWidget]
  cases hnode : lower node with
  | none =>
      have hhidden : lower node.hideTexts = none := by simpa [hnode] using hlower
      rw [hhidden]
      exact blank_lowerAsPanel node
  | some widget =>
      obtain ⟨other, hother, hblank⟩ : ∃ other, lower node.hideTexts = some other
          ∧ other.blank = widget.blank := by simpa [hnode] using hlower
      rw [hother]
      exact hblank

end Widget

/-! ## Pages -/

variable {nodes others : List Node}

theorem blank_appBar (header : Node) : (appBar header.hideTexts).blank = (appBar header).blank := by
  have hlabel : (header.hideTexts.children.find? (·.kind = .label)).map Attributes.of
      = ((header.children.find? (·.kind = .label)).map Attributes.of).map Attributes.hide := by
    simp [List.find?_map, Function.comp_def, Attributes.of_hideTexts]
  have hcolor : ∀ titleLabel : Option Attributes,
      (titleLabel.map Attributes.hide).bind (·.ownPaint? "color")
        = titleLabel.bind (·.ownPaint? "color") := by
    rintro (_ | a)
    · rfl
    · exact Attributes.ownPaint?_hide (by simp)
  have hfill : (Attributes.of header.hideTexts).paint "decoration.color"
      = (Attributes.of header).paint "decoration.color" := by simp [Attributes.of_hideTexts]
  have harg : ∀ {front back : List Code} {title other : Code}, title.blank = other.blank →
      (front ++ .named "title" title :: back).map Code.blank
        = (front ++ .named "title" other :: back).map Code.blank := by
    intro front back title other h
    simp [blank_named "title" h]
  unfold appBar
  dsimp only
  rw [hlabel, hcolor, hfill]
  refine blank_call (harg ?_)
  split
  · exact blank_call rfl
  · rfl

theorem header?_hideTextsAll (nodes : List Node) :
    header? (Node.hideTextsAll nodes) = (header? nodes).map Node.hideTexts := by
  simp [header?, Node.hideTextsAll_eq_map, List.find?_map]

theorem withoutHeader_hideTextsAll (nodes : List Node) :
    withoutHeader (Node.hideTextsAll nodes) = Node.hideTextsAll (withoutHeader nodes) := by
  induction nodes with
  | nil => rfl
  | cons node rest ih =>
      rw [Node.hideTextsAll, withoutHeader, withoutHeader, Node.kind_hideTexts, ih]
      split <;> rfl

theorem blank_scaffold (nodes : List Node) :
    (scaffold (Node.hideTextsAll nodes)).blank = (scaffold nodes).blank := by
  have hbody : (body (Node.hideTextsAll nodes)).map Code.blank = (body nodes).map Code.blank := by
    rw [body, body, withoutHeader_hideTextsAll, Node.hideTextsAll_eq_map]
    simp [blank_topWidget]
  have hargs : ∀ {bar other : Code}, bar.blank = other.blank →
      [Code.named "appBar" bar, .named "body" (stack (body (Node.hideTextsAll nodes)))].map
          Code.blank
        = [Code.named "appBar" other, .named "body" (stack (body nodes))].map Code.blank := by
    intro bar other h
    simp [blank_named "appBar" h, blank_named "body" (blank_stack hbody)]
  rw [scaffold, scaffold, header?_hideTextsAll]
  refine blank_call ?_
  cases header? nodes with
  | none => exact hargs rfl
  | some header => exact hargs (blank_appBar header)

theorem seeds_hideTextsAll (nodes : List Node) : seeds (Node.hideTextsAll nodes) = seeds nodes := by
  have hseed : ∀ node : Node, Seed.ofNode? node.hideTexts = Seed.ofNode? node := by
    intro node
    simp [Seed.ofNode?, initialChoice, Attributes.of_hideTexts]
  simp [seeds, Node.preorderAll_hideTextsAll, List.filterMap_map, hseed]

theorem isStateful_hideTextsAll (nodes : List Node) :
    isStateful (Node.hideTextsAll nodes) = isStateful nodes := by
  simp [isStateful, Node.preorderAll_hideTextsAll, Function.comp_def]

/-! ## Reading -/

namespace Dart.Lexer

/-- After a line feed the reader is between tokens, if it got so far. -/
theorem eq_between_of_newline {mode next : Mode} {ts : List Token}
    (h : mode.step? '\n' = some (ts, next)) : next = .between := by
  have hoperators : ∀ s ∈ operators, '\n' ∉ s := by decide
  have hgo : mode.goOn? '\n' = none := by
    cases mode with
    | number stage source => cases stage <;> rfl
    | mark source =>
        have hmem : source ++ ['\n'] ∉ operators := fun hm => hoperators _ hm (by simp)
        simp [Mode.goOn?, hmem]
    | _ => rfl
  have hbegin : begin? '\n' = some .between := rfl
  rw [Mode.step?, hgo, hbegin] at h
  simp only at h
  split at h
  · simp at h
  · cases hmode : mode.tokens? with
    | none => simp [hmode] at h
    | some ended => exact (by simpa [hmode] using h.symm : ts = ended ∧ next = .between).2

/-- What stands behind a line feed is read alike, whatever stands before it. -/
theorem read_newline (mode : Mode) (s : Text) : ∃ before : Option (List Token), ∀ t,
    read mode (s ++ '\n' :: t) = before.bind fun ts => (read .between t).map (ts ++ ·) := by
  refine ⟨(run mode s).bind fun before => (before.2.step? '\n').map (before.1 ++ ·.1), fun t => ?_⟩
  rw [read_append]
  cases run mode s with
  | none => rfl
  | some before =>
      rw [Option.bind_some, Option.bind_some, read_cons]
      cases hstep : before.2.step? '\n' with
      | none => rfl
      | some taken =>
          obtain ⟨ended, next⟩ := taken
          rw [eq_between_of_newline hstep]
          cases hrest : read .between t <;> simp [hrest]

end Dart.Lexer

/-! ## Pages -/

/-- The tokens of a page behind the names of its classes. -/
def tailTokens (nodes : List Node) : List Token :=
  (if isStateful nodes then (seeds nodes).flatMap Seed.tokens ++ fixed "\x7d" else [])
    ++ (buildTokens (scaffold nodes) ++ fixed "\x7d")

theorem exists_statelessSource (name : String) : ∃ front : Text, ∀ build,
    statelessSource name build = front ++ '\n' :: (build ++ "\x7d\n".toList) := by
  have hend : "(\x7bsuper.key\x7d);\n\n".toList = "(\x7bsuper.key\x7d);\n".toList ++ ['\n'] := rfl
  refine ⟨(materialImport ++ "\n\n" ++ "class " ++ name ++ " extends StatelessWidget \x7b\n"
    ++ "  const " ++ name ++ "(\x7bsuper.key\x7d);\n").toList, fun build => ?_⟩
  simp only [statelessSource, String.toList_append, hend, List.append_assoc, List.cons_append,
    List.nil_append]

theorem exists_statefulSource (name : String) : ∃ front : Text, ∀ seeds build,
    statefulSource name seeds build = front ++ '\n'
      :: (seeds.flatMap (fun seed => "    ".toList ++ seed.statement ++ ['\n'])
        ++ ("  \x7d\n\n".toList ++ (build ++ "\x7d\n".toList))) := by
  have hend : "    super.initState();\n".toList = "    super.initState();".toList ++ ['\n'] := rfl
  simp only [statefulSource, String.toList_append, hend, List.append_assoc, List.cons_append,
    List.nil_append]
  simp only [← List.append_assoc _ _ ('\n' :: _)]
  exact ⟨_, fun _ _ => rfl⟩

/-- A page begins with what its name and its state decide, whatever characters the name holds, and
ends with what its nodes decide. -/
theorem exists_head (name : String) (stateful : Bool) : ∃ head : Option (List Token),
    ∀ nodes, isStateful nodes = stateful →
      tokens? (assemblePage name nodes) = head.map (· ++ tailTokens nodes) := by
  have hadmits : ∀ nodes, ∀ n ∈ Node.preorderAll nodes, Admits finiteScope n :=
    fun _ n _ => admits_finiteScope n
  have hmethod : ∀ nodes, Closed (buildMethod (scaffold nodes) ++ "\x7d\n".toList)
      (buildTokens (scaffold nodes) ++ fixed "\x7d") := fun nodes =>
    (closed_buildMethod (made_scaffold (hadmits nodes))).append closed_end
  have hhead : ∀ (before : Option (List Token)) {t : Text} {ts : List Token}, Closed t ts →
      (before.bind fun us => (read .between t).map (us ++ ·)) = before.map (· ++ ts) := by
    intro before t ts hclosed
    have hread : read .between t = some ts := hclosed.phrase.tokens?
    cases before <;> simp [hread]
  cases stateful with
  | false =>
      obtain ⟨front, hsource⟩ := exists_statelessSource name
      obtain ⟨before, hbefore⟩ := read_newline .between front
      refine ⟨before, fun nodes hstate => ?_⟩
      simp only [assemblePage, PageClass.render, PageClass.ofNodes, tailTokens, hstate,
        Bool.false_eq_true, if_false, List.nil_append]
      rw [hsource, tokens?, hbefore, hhead before (hmethod nodes)]
  | true =>
      obtain ⟨front, hsource⟩ := exists_statefulSource name
      obtain ⟨before, hbefore⟩ := read_newline .between front
      refine ⟨before, fun nodes hstate => ?_⟩
      have hseeds := closed_flatMap fun seed (hseed : seed ∈ seeds nodes) =>
        closed_seed (made_seed (hadmits nodes) hseed)
      have hinit : Closed "  \x7d\n\n".toList (fixed "\x7d") :=
        closed_of_texts rfl rfl (by decide) (by decide)
      simp only [assemblePage, PageClass.render, PageClass.ofNodes, tailTokens, hstate, if_true]
      rw [hsource, tokens?, hbefore, hhead before (hseeds.append (hinit.append (hmethod nodes))),
        List.append_assoc]

theorem map_blank_tailTokens (nodes : List Node) :
    (tailTokens (Node.hideTextsAll nodes)).map Token.blank
      = (tailTokens nodes).map Token.blank := by
  have hscaffold := Code.map_blank_tokens (blank_scaffold nodes)
  simp only [tailTokens, isStateful_hideTextsAll, seeds_hideTextsAll, buildTokens, List.map_append,
    hscaffold]

/-- **Texts reach strings only.** -/
theorem map_blank_tokens? (name : String)
    (h : Node.hideTextsAll nodes = Node.hideTextsAll others) :
    (tokens? (assemblePage name nodes)).map (·.map Token.blank)
      = (tokens? (assemblePage name others)).map (·.map Token.blank) := by
  have hstate : isStateful others = isStateful nodes := by
    rw [← isStateful_hideTextsAll, ← h, isStateful_hideTextsAll]
  have htail : (tailTokens nodes).map Token.blank = (tailTokens others).map Token.blank := by
    rw [← map_blank_tailTokens, h, map_blank_tailTokens]
  obtain ⟨head, hhead⟩ := exists_head name (isStateful nodes)
  rw [hhead nodes rfl, hhead others hstate]
  cases head with
  | none => rfl
  | some ts => simp [htail]

/-- **No canvas injects code.** In the source of every page each token is harmless where it stands;
and forests that differ in what their texts say give pages that differ in strings only. -/
theorem harmless_and_map_blank :
    (∀ canvas pages, parsePages canvas = .ok pages → ∀ g ∈ compilePages pages,
      ∃ ts, tokens? g.source = some ts ∧ AllHarmless g.route.className.toList ts)
    ∧ ∀ name nodes others, Node.hideTextsAll nodes = Node.hideTextsAll others →
      (tokens? (assemblePage name nodes)).map (·.map Token.blank)
        = (tokens? (assemblePage name others)).map (·.map Token.blank) :=
  ⟨fun _ _ _ _ hg => harmless_source hg, fun name _ _ h => map_blank_tokens? name h⟩

/-- A label that tries to end its string. -/
def endingCanvas : String :=
  "[\x7b\"components\":[\x7b\"type\":\"Text\",\"text\":\"'); exit(1); // $x\"\x7d]\x7d]"

/-- A label in a panel. -/
def boxedLabel (text : String) : Node :=
  ⟨.panel, none, [], [⟨.label, none, [("text", .string text)], []⟩]⟩

/-- The first text of a canvas of one page. -/
def firstText? : Except ExportError (List Page) → Option String
  | .ok [page] => page.components.head?.bind (·.text? "text")
  | _ => none

theorem harmless_and_map_blank_endingCanvas :
    (∃ page g ts, parsePages endingCanvas = .ok [page]
      ∧ page.components.head?.bind (·.text? "text") = some "'); exit(1); // $x"
      ∧ compilePages [page] = [g] ∧ tokens? g.source = some ts
      ∧ AllHarmless g.route.className.toList ts)
    ∧ Node.hideTextsAll [boxedLabel "'); exit(1); // $x"] = Node.hideTextsAll [boxedLabel "ok"]
    ∧ (tokens? (assemblePage "HomePage" [boxedLabel "'); exit(1); // $x"])).map (·.map Token.blank)
      = (tokens? (assemblePage "HomePage" [boxedLabel "ok"])).map (·.map Token.blank) := by
  have hcanvas : firstText? (parsePages endingCanvas) = some "'); exit(1); // $x" := by
    decide +kernel
  obtain ⟨page, hpages, htext⟩ : ∃ page, parsePages endingCanvas = .ok [page]
      ∧ page.components.head?.bind (·.text? "text") = some "'); exit(1); // $x" := by
    unfold firstText? at hcanvas
    split at hcanvas
    · next page hpage => exact ⟨page, hpage, hcanvas⟩
    · simp at hcanvas
  obtain ⟨g, hg⟩ : ∃ g, compilePages [page] = [g] := ⟨_, rfl⟩
  obtain ⟨ts, hts, hharmless⟩ := harmless_and_map_blank.1 _ _ hpages g (by simp [hg])
  have hhidden : Node.hideTextsAll [boxedLabel "'); exit(1); // $x"]
      = Node.hideTextsAll [boxedLabel "ok"] := by
    simp [boxedLabel, Node.hideTextsAll, Node.hideTexts, Node.hideText]
  exact ⟨⟨page, g, ts, hpages, htext, hg, hts, hharmless⟩, hhidden,
    harmless_and_map_blank.2 _ _ _ hhidden⟩

end CanvasFlutter
