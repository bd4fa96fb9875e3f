import CanvasFlutter.Dart.Code

namespace CanvasFlutter.Dart

/-!
# `CanvasFlutter.Proofs.Dart.Value` — what generated expressions come to

The widgets of a page read the entries of its state and their handlers set them. Here the expressions
that widgets are made of are evaluated and the statements of handlers are run, as the language does.

## Contents
- **Values.** `Value`, `Value.same`; a `State` holds the entries.
- **Expressions.** `eval`, `evalAll`.
- **Statements.** `step?`, `run`; `Value.invoke` calls a handler.
-/

/-! ## Values -/

/-- What an expression comes to. -/
inductive Value where
  | null
  | bool (b : Bool)
  | text (s : String)
  | number (x : Float)
  /-- A constant of the framework, by its name. -/
  | constant (name : String)
  | list (items : List Value)
  /-- What a call gives; an argument without a name has the empty one. -/
  | object (callee : String) (args : List (String × Value))
  /-- A function that is still to be called. -/
  | function (parameters : String) (body : List Code)

namespace Value

/-- Whether two values are equal in the language; no two others ever are the same. -/
def same : Value → Value → Bool
  | .null, .null => true
  | .bool a, .bool b => a == b
  | .text s, .text t => s == t
  | _, _ => false

def isNull : Value → Bool
  | .null => true
  | _ => false

end Value

/-- The entries of a page's state by map and key; null if there is none. -/
abbrev State := String → String → Value

/-- The state with one entry set. -/
def State.set (state : State) (map key : String) (value : Value) : State := fun m k =>
  if m = map ∧ k = key then value else state m k

/-- The values of parameters. -/
abbrev Locals := List (String × Value)

/-- The name of a single parameter, such as `value` in `(String value)`. -/
def parameterName (parameters : String) : String :=
  String.ofList (((parameters.toList.filter fun c => c ≠ '(' ∧ c ≠ ')').splitOn ' ').getLastD [])

/-! ## Expressions -/

/-- What a word stands for: a parameter, a word of the language or a constant. -/
def wordValue (locals : Locals) (source : String) : Value :=
  match locals.lookup source with
  | some value => value
  | none =>
      match source with
      | "null" => .null
      | "true" => .bool true
      | "false" => .bool false
      | _ => .constant source

mutual

/-- The value of an expression; `none` for what is no expression or would throw. -/
def eval (state : State) : Code → Locals → Option Value
  | .word source, locals => some (wordValue locals source)
  | .literal text, _ => some (.text text)
  | .number x, _ => some (.number x)
  | .paint p, _ => some (.constant (String.ofList p.text))
  | .icon name, _ => some (.constant ("Icons." ++ String.ofList name))
  | .entry map key, _ => some (state map key)
  | .strings texts, _ => some (.list (texts.map .text))
  | .method receiver "contains" [item], locals =>
      match eval state receiver locals, eval state item locals with
      | some (.list items), some value => some (.bool (items.any value.same))
      | _, _ => none
  | .method receiver "map" [.closure parameters [.result value]], locals =>
      match eval state receiver locals with
      | some (.list items) =>
          (items.mapM fun item =>
            eval state value ((parameterName parameters, item) :: locals)).map .list
      | _ => none
  | .method receiver "toList" [], locals => eval state receiver locals
  | .orFalse value, locals =>
      match eval state value locals with
      | some .null => some (.bool false)
      | some (.bool b) => some (.bool b)
      | _ => none
  | .negated value, locals =>
      match eval state value locals with
      | some (.bool b) => some (.bool !b)
      | _ => none
  | .choice condition yes no, locals =>
      match eval state condition locals with
      | some (.bool true) => eval state yes locals
      | some (.bool false) => eval state no locals
      | _ => none
  | .apply callee args, locals => (evalAll state args locals).map (.object callee)
  | .call callee args, locals => (evalAll state args locals).map (.object callee)
  | .list items, locals => (evalAll state items locals).map fun values => .list (values.map (·.2))
  | .closure parameters body, _ => some (.function parameters body)
  | _, _ => none

/-- The values of arguments, with their names. -/
def evalAll (state : State) : List Code → Locals → Option (List (String × Value))
  | [], _ => some []
  | .named name value :: rest, locals => do
      let value ← eval state value locals
      let values ← evalAll state rest locals
      return (name, value) :: values
  | c :: rest, locals => do
      let value ← eval state c locals
      let values ← evalAll state rest locals
      return ("", value) :: values

end

/-! ## Statements -/

/-- The name that a statement compares with null to return if it is. -/
def nullCheck? (source : String) : Option String :=
  let front := "if (".toList
  let back := " == null) return".toList
  let t := source.toList
  if front <+: t ∧ back <:+ t then
    some (String.ofList ((t.drop front.length).take (t.length - front.length - back.length)))
  else none

mutual

/-- The state after a statement, and whether the statements after it are run. -/
def step? : Code → Locals → State → Option (State × Bool)
  | .word source, locals, state => do
      let value ← locals.lookup (← nullCheck? source)
      return (state, !value.isNull)
  | .assign (.entry map key) value, locals, state => do
      let value ← eval state value locals
      return (state.set map key value, true)
  | .apply "setState" [.closure "()" body], locals, state => do
      let state ← run body locals state
      return (state, true)
  | _, _, _ => none

/-- The state after some statements. -/
def run : List Code → Locals → State → Option State
  | [], _, state => some state
  | c :: rest, locals, state =>
      match step? c locals state with
      | some (state, true) => run rest locals state
      | some (state, false) => some state
      | none => none

end

/-- The state after a function of one argument was called. -/
def Value.invoke : Value → Value → State → Option State
  | .function parameters body, value, state => run body [(parameterName parameters, value)] state
  | _, _, _ => none

end CanvasFlutter.Dart
