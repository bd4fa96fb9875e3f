import CanvasFlutter.Text

/-!
# `CanvasFlutter.Dart.Layout` — how blocks of source stand inside each other

A block is a text of one or more lines. Where a block is placed inside another one, its lines are
moved to the right; empty lines stay empty.

## Contents
- **Indentation.** `indentTail` for a block that begins in the middle of a line, `indent` for one
  that begins a line.
- **Shapes.** `call`, `list` and `closure`: one argument, item or statement a line.
-/

namespace CanvasFlutter.Dart.Layout

/-! ## Indentation -/

/-- A line moved to the right. -/
def pad (spaces : Nat) (line : Text) : Text :=
  if line.isEmpty then [] else List.replicate spaces ' ' ++ line

/-- A block with every line after the first moved to the right. -/
def indentTail (block : Text) (spaces : Nat) : Text :=
  match Text.lines block with
  | [] => []
  | first :: rest => first ++ rest.flatMap fun line => '\n' :: pad spaces line

/-- A block with every line moved to the right. -/
def indent (block : Text) (spaces : Nat) : Text :=
  Text.joinWith ['\n'] ((Text.lines block).map (pad spaces))

@[simp] theorem pad_nil (spaces : Nat) : pad spaces [] = [] := rfl

@[simp] theorem pad_cons (spaces : Nat) (c : Char) (line : Text) :
    pad spaces (c :: line) = List.replicate spaces ' ' ++ c :: line := rfl

/-! ## Shapes -/

/-- A named argument. -/
def named (name value : Text) : Text := name ++ ": ".toList ++ value

/-- A call with one argument a line, each followed by a comma. -/
def call (callee : Text) (args : List Text) : Text :=
  if args.isEmpty then callee ++ "()".toList
  else
    callee ++ "(\n".toList
      ++ args.flatMap (fun arg => "  ".toList ++ indentTail arg 2 ++ ",\n".toList) ++ [')']

/-- A list with one item a line, each followed by a comma. -/
def list (items : List Text) : Text :=
  if items.isEmpty then "[]".toList
  else "[\n".toList ++ items.flatMap (fun item => indent item 2 ++ ",\n".toList) ++ [']']

/-- A function with one statement a line, each followed by a semicolon. -/
def closure (parameters : Text) (body : List Text) : Text :=
  let opening := parameters ++ [' ', '{']
  if body.isEmpty then opening ++ ['}']
  else
    opening ++ ['\n']
      ++ body.flatMap (fun statement => "  ".toList ++ indentTail statement 2 ++ ";\n".toList)
      ++ ['}']

end CanvasFlutter.Dart.Layout
