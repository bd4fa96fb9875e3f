import CanvasFlutter.Widget.Lower

namespace CanvasFlutter

/-!
# `CanvasFlutter.Proofs.Widget.Argument` — what a widget is given by name

A widget is a call with named arguments, and an input stands some calls within the widget of its
node. Both are found by the names of the arguments that lead there.

## Contents
- **Arguments.** `Code.argument?` is the value of a call's argument and `Code.within?` follows
  several names; lemmas for rows of arguments.
- **Places.** The widget at a place is its `child` (`argument?_place`).
-/

open Dart

namespace Dart.Code

/-! ## Arguments -/

/-- The value of the first argument with a name. -/
def valueOf? (name : String) : List Code → Option Code
  | [] => none
  | .named n value :: rest => if n = name then some value else valueOf? name rest
  | _ :: rest => valueOf? name rest

/-- The value of a call's argument with a name. -/
def argument? (name : String) : Code → Option Code
  | .call _ args => valueOf? name args
  | _ => none

/-- What names of arguments lead to, each within the value of the one before. -/
def within? : List String → Code → Option Code
  | [], c => some c
  | name :: rest, c => (c.argument? name).bind (within? rest)

variable {name other : String} {value : Code} {rest args : List Code}

theorem valueOf?_named_self : valueOf? name (.named name value :: rest) = some value := by
  rw [valueOf?, if_pos rfl]

theorem valueOf?_named_of_ne (h : other ≠ name) :
    valueOf? name (.named other value :: rest) = valueOf? name rest := by
  rw [valueOf?, if_neg h]

theorem valueOf?_append :
    valueOf? name (args ++ rest) = (valueOf? name args).or (valueOf? name rest) := by
  induction args with
  | nil => rfl
  | cons c args ih =>
      cases c with
      | named n value =>
          by_cases h : n = name
          · rw [List.cons_append, h, valueOf?_named_self, valueOf?_named_self, Option.some_or]
          · rw [List.cons_append, valueOf?_named_of_ne h, valueOf?_named_of_ne h, ih]
      | _ => exact ih

theorem valueOf?_namedIfAny_self (value : Option Code) :
    valueOf? name (namedIfAny name value) = value := by
  cases value with
  | none => rfl
  | some value => exact valueOf?_named_self

theorem valueOf?_namedIfAny_of_ne (h : other ≠ name) (value : Option Code) :
    valueOf? name (namedIfAny other value) = none := by
  cases value with
  | none => rfl
  | some value => exact valueOf?_named_of_ne h

end Dart.Code

/-! ## Places -/

namespace Widget

open Code

theorem argument?_place (a : Attributes) (widget : Code) :
    (place a widget).argument? "child" = some widget := by
  unfold place
  split
  · exact (valueOf?_named_of_ne (by decide)).trans valueOf?_named_self
  · exact (valueOf?_named_of_ne (by decide)).trans
      ((valueOf?_named_of_ne (by decide)).trans valueOf?_named_self)

end Widget

end CanvasFlutter
