import CanvasFlutter.Widget.Lower

/-!
# `CanvasFlutter.PageSource.Seed` — the state that a page starts with

A page has state if a box to tick or a dropdown stands anywhere in it. Each of these gets one seed,
in document order.

## Contents
- **Seeds.** `Seed`, `Seed.ofNode?`, `Seed.statement`.
- **Pages.** `isStateful`, `seeds`; a page has a seed exactly if it has state
  (`isStateful_eq_false_iff`).
-/

namespace CanvasFlutter

open CanvasFlutter.Dart Widget

/-! ## Seeds -/

/-- The first value of a node's state. -/
inductive Seed where
  /-- What is chosen in a dropdown. -/
  | chosen (key option : String)
  /-- Whether a box is ticked. -/
  | ticked (key : String) (checked : Bool)
  deriving DecidableEq, Repr

/-- What a dropdown starts with: its own choice, or else its first option, or else the policy's. -/
def initialChoice (node : Node) : String :=
  let a := Attributes.of node
  match a.ownText? "selectedOption" with
  | some option => option
  | none => (node.list "options").head?.getD (a.text "selectedOption")

/-- The seed of a node whose kind carries state. -/
def Seed.ofNode? (node : Node) : Option Seed :=
  match node.kind with
  | .choiceDropdown => some (.chosen node.stateKey (initialChoice node))
  | .toggleBox => some (.ticked node.stateKey ((Attributes.of node).flag "checked"))
  | _ => none

theorem Seed.isSome_ofNode? (node : Node) :
    (Seed.ofNode? node).isSome = node.kind.carriesState := by
  unfold Seed.ofNode?
  cases node.kind <;> rfl

/-- The assignment of a seed. -/
def Seed.code : Seed → Code
  | .chosen key option => .assign (.entry dropdownState key) (.literal option)
  | .ticked key checked =>
      .assign (.entry checkboxState key) (.word (if checked then "true" else "false"))

/-- The statement of a seed, such as `checkboxStates['t1'] = true;`. -/
def Seed.statement (seed : Seed) : Text := seed.code.render ++ [';']

/-! ## Pages -/

/-- Whether a node at any depth carries state. -/
def isStateful (nodes : List Node) : Bool :=
  (Node.preorderAll nodes).any (·.kind.carriesState)

/-- The seeds of a forest in document order. -/
def seeds (nodes : List Node) : List Seed := (Node.preorderAll nodes).filterMap Seed.ofNode?

/-- A forest without state is one without seeds. -/
theorem isStateful_eq_false_iff (nodes : List Node) :
    isStateful nodes = false ↔ seeds nodes = [] := by
  simp [isStateful, seeds, List.filterMap_eq_nil_iff, ← Seed.isSome_ofNode?]

end CanvasFlutter
