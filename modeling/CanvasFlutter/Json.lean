import CanvasFlutter.Decimal.Style

/-!
# `CanvasFlutter.Json` — JSON values

A canvas keeps its attributes as JSON values. An object is the list of its members in ascending
order of names, each name once; `setMember` keeps it so.

## Contents
- **Values.** `Json`, `JsonNumber`, and the text of a number.
- **Members.** `member?` looks up and `setMember` overwrites.
-/

namespace CanvasFlutter

/-! ## Values -/

/-- A JSON number: an integer, or the nearest double. -/
inductive JsonNumber where
  | int (n : Int)
  | real (x : Float)

/-- A JSON value. -/
inductive Json where
  | null
  | bool (b : Bool)
  | number (n : JsonNumber)
  | string (s : String)
  | array (items : List Json)
  | object (members : List (String × Json))

/-- A number by itself has its shortest digits, a fraction even if it is whole, and an exponent
with a sign outside the range from `1e-5` to below `1e16`. -/
def JsonNumber.style : Decimal.Style where
  tie := .even
  fixedFrom := -5
  fixedTo := 15
  wholeFraction := true
  plusSign := true
  zero := "0.0".toList
  negativeZero := "-0.0".toList

/-- The text of a number. -/
def JsonNumber.text : JsonNumber → String
  | .int n => String.ofList (Decimal.writeInt n)
  | .real x => String.ofList (JsonNumber.style.write x)

/-- The double nearest to a number. -/
def JsonNumber.toFloat : JsonNumber → Float
  | .int n => if n < 0 then -Decimal.ofWhole n.natAbs else Decimal.ofWhole n.natAbs
  | .real x => x

namespace Json

/-! ## Members -/

/-- The member of an object with this name. -/
def member? (name : String) (members : List (String × Json)) : Option Json :=
  members.lookup name

/-- The members with one of them set, in order of names. -/
def setMember (name : String) (value : Json) : List (String × Json) → List (String × Json)
  | [] => [(name, value)]
  | (n, v) :: rest =>
      if name = n then (name, value) :: rest
      else if name < n then (name, value) :: (n, v) :: rest
      else (n, v) :: setMember name value rest

/-- The members other than one. -/
def eraseMember (name : String) (members : List (String × Json)) : List (String × Json) :=
  members.filter (·.1 ≠ name)

@[simp] theorem member?_nil (name : String) : member? name [] = none := rfl

theorem member?_cons (name n : String) (v : Json) (rest : List (String × Json)) :
    member? name ((n, v) :: rest) = if name = n then some v else member? name rest := by
  simp only [member?, List.lookup_cons]
  by_cases h : name = n
  · simp [h]
  · simp [h, beq_false_of_ne h]

/-- The members of an object. -/
def members? : Json → Option (List (String × Json))
  | .object members => some members
  | _ => none

/-- The items of an array. -/
def items? : Json → Option (List Json)
  | .array items => some items
  | _ => none

/-- The text that a string, a number or a truth value stands for. -/
def text? : Json → Option String
  | .string s => some s
  | .number n => some n.text
  | .bool b => some (if b then "true" else "false")
  | _ => none

end Json

end CanvasFlutter
