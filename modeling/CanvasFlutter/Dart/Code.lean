import CanvasFlutter.Dart.Layout
import CanvasFlutter.Dart.Literal
import CanvasFlutter.Dart.Paint

/-!
# `CanvasFlutter.Dart.Code` — generated source as a tree

Widgets are built as trees of expressions and statements and laid out at the end, so that what a
widget says does not depend on where it stands.

## Contents
- **Trees.** `Code`: words and literals, the inline forms, and the three forms that take a line
  for each part.
- **Printing.** `Code.render`.
-/

namespace CanvasFlutter.Dart

/-! ## Trees -/

/-- A piece of Dart source. -/
inductive Code where
  /-- Fixed source on one line: a name, a keyword or a constant. -/
  | word (source : String)
  /-- The string literal of a text. -/
  | literal (text : String)
  /-- The literal of a number. -/
  | number (x : Float)
  /-- What a layer is filled with. -/
  | paint (p : Paint)
  /-- An icon of the material set. -/
  | icon (name : Text)
  /-- The entry `map['key']`. -/
  | entry (map key : String)
  /-- A named argument. -/
  | named (name : String) (value : Code)
  /-- A list of string literals on one line. -/
  | strings (texts : List String)
  /-- A call with its arguments on one line. -/
  | apply (callee : String) (args : List Code)
  /-- A call of a method with its arguments on one line. -/
  | method (receiver : Code) (name : String) (args : List Code)
  /-- The entry's truth value, false if it has none, in parentheses. -/
  | orFalse (value : Code)
  /-- The opposite truth value. -/
  | negated (value : Code)
  /-- One of two values. -/
  | choice (condition yes no : Code)
  /-- An assignment. -/
  | assign (target value : Code)
  /-- The result of a function. -/
  | result (value : Code)
  /-- A call with one argument a line. -/
  | call (callee : String) (args : List Code)
  /-- A list with one item a line. -/
  | list (items : List Code)
  /-- A function with one statement a line. -/
  | closure (parameters : String) (body : List Code)

namespace Code

/-- An optional named argument. -/
def namedIfAny (name : String) (value : Option Code) : List Code :=
  (value.map (Code.named name)).toList

/-! ## Printing -/

/-- Texts on one line with commas between them. -/
def commas (texts : List Text) : Text := Text.joinWith ", ".toList texts

mutual

/-- The source of a tree. -/
def render : Code → Text
  | .word source => source.toList
  | .literal text => Literal.string text.toList
  | .number x => Literal.number x
  | .paint p => p.text
  | .icon name => "Icons.".toList ++ name
  | .entry map key => map.toList ++ '[' :: (Literal.string key.toList ++ [']'])
  | .named name value => Layout.named name.toList (render value)
  | .strings texts =>
      "<String>[".toList ++ commas (texts.map fun t => Literal.string t.toList) ++ [']']
  | .apply callee args => callee.toList ++ '(' :: (commas (renderAll args) ++ [')'])
  | .method receiver name args =>
      render receiver ++ '.' :: (name.toList ++ '(' :: (commas (renderAll args) ++ [')']))
  | .orFalse value => '(' :: (render value ++ " ?? false)".toList)
  | .negated value => '!' :: render value
  | .choice condition yes no =>
      render condition ++ " ? ".toList ++ render yes ++ " : ".toList ++ render no
  | .assign target value => render target ++ " = ".toList ++ render value
  | .result value => "return ".toList ++ render value
  | .call callee args => Layout.call callee.toList (renderAll args)
  | .list items => Layout.list (renderAll items)
  | .closure parameters body => Layout.closure parameters.toList (renderAll body)

/-- The source of each tree. -/
def renderAll : List Code → List Text
  | [] => []
  | c :: rest => render c :: renderAll rest

end

theorem renderAll_eq_map (cs : List Code) : renderAll cs = cs.map render := by
  induction cs with
  | nil => rfl
  | cons c rest ih => simp [renderAll, ih]

end Code

end CanvasFlutter.Dart
