/-!
# `CanvasFlutter.Toml.Value` — TOML tables and how they grow

A TOML document builds its tables piece by piece. Each table remembers how it came about, because
that decides which later parts of the document may still add to it.

## Contents
- **Values.** `TableOrigin`, `Value`, `Members`.
- **Members.** `lookup?`, `set`.
- **Growth.** `insert?` for a key and a value, `open?` for the header of a table or of an array of
  tables. Each gives nothing where the document contradicts itself.
-/

namespace CanvasFlutter.Toml

/-! ## Values -/

/-- How a table came about. -/
inductive TableOrigin where
  /-- By its own header. -/
  | header
  /-- By the header of a table within it. -/
  | implied
  /-- By a dotted key. -/
  | dotted
  /-- Written out on one line; nothing may be added. -/
  | inline
  deriving DecidableEq, Repr

/-- A TOML value, as far as a configuration looks at it. -/
inductive Value where
  | string (s : String)
  | integer (n : Int)
  /-- A truth value or a number with a fraction or exponent. -/
  | plain
  /-- A date, a time or both. -/
  | moment
  | array (items : List Value)
  /-- The tables of one repeated header, in order. -/
  | tables (items : List (List (String × Value)))
  | table (origin : TableOrigin) (members : List (String × Value))

/-- The members of a table, in the order in which they appear. -/
abbrev Members := List (String × Value)

/-! ## Members -/

/-- The member with this name. -/
def lookup? (name : String) (members : Members) : Option Value := members.lookup name

/-- The members with one of them changed or added. -/
def set (name : String) (value : Value) : Members → Members
  | [] => [(name, value)]
  | (n, v) :: rest => if n = name then (name, value) :: rest else (n, v) :: set name value rest

/-! ## Growth -/

/-- A document's members with a change made to those of the last of some tables. -/
def changeLast? (change : Members → Option Members) : List Members → Option (List Members)
  | [] => none
  | [last] => (change last).map ([·])
  | first :: rest => (changeLast? change rest).map (first :: ·)

/-- A value set under a dotted key. All tables on the way but the one that takes the value may come
from headers of tables within them; that one must come from dotted keys alone. -/
def insert? : (path : List String) → (value : Value) → Members → Option Members
  | [], _, _ => none
  | [name], value, members =>
      match lookup? name members with
      | none => some (set name value members)
      | some _ => none
  | name :: rest, value, members =>
      match lookup? name members with
      | none => (insert? rest value []).map fun inner => set name (.table .dotted inner) members
      | some (.table .dotted inner) =>
          (insert? rest value inner).map fun inner => set name (.table .dotted inner) members
      | some (.table .implied inner) =>
          if rest.length ≤ 1 then none
          else (insert? rest value inner).map fun inner => set name (.table .implied inner) members
      | _ => none

/-- A change made to the members of the table at a path, which headers have opened. -/
def changeAt? (change : Members → Option Members) : (path : List String) → Members → Option Members
  | [], members => change members
  | name :: rest, members =>
      match lookup? name members with
      | some (.table origin inner) =>
          (changeAt? change rest inner).map fun inner => set name (.table origin inner) members
      | some (.tables items) =>
          (changeLast? (changeAt? change rest) items).map fun items => set name (.tables items) members
      | _ => none

/-- A change made to the members of the table that holds the last name of a header's path; tables
on the way that are not there yet come about. -/
def descend? (change : String → Members → Option Members) :
    (path : List String) → Members → Option Members
  | [], _ => none
  | [name], members => change name members
  | name :: rest, members =>
      match lookup? name members with
      | none => (descend? change rest []).map fun inner => set name (.table .implied inner) members
      | some (.table .inline _) => none
      | some (.table origin inner) =>
          (descend? change rest inner).map fun inner => set name (.table origin inner) members
      | some (.tables items) =>
          (changeLast? (descend? change rest) items).map fun items => set name (.tables items) members
      | _ => none

/-- The header of a table: each table has at most one. -/
def openTable? (name : String) (members : Members) : Option Members :=
  match lookup? name members with
  | none => some (set name (.table .header []) members)
  | some (.table .implied inner) => some (set name (.table .header inner) members)
  | _ => none

/-- A repeated header: one more table. -/
def openRepeated? (name : String) (members : Members) : Option Members :=
  match lookup? name members with
  | none => some (set name (.tables [[]]) members)
  | some (.tables items) => some (set name (.tables (items ++ [[]])) members)
  | _ => none

/-- A document after a header. -/
def open? (repeated : Bool) (path : List String) (document : Members) : Option Members :=
  descend? (if repeated then openRepeated? else openTable?) path document

end CanvasFlutter.Toml
