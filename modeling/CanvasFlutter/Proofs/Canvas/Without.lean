import CanvasFlutter.Canvas.Node

namespace CanvasFlutter

/-!
# `CanvasFlutter.Proofs.Canvas.Without` — a node without one of its attributes

## Contents
- **Members.** What is found among members of which one is left out or changed.
- **Paths.** `Node.dropAt` leaves out what a path leads to; `Node.Apart` paths are found as before.
- **Nodes.** `Node.without`; `attr?_without_self`, `attr?_without`.
-/

/-! ## Members -/

namespace Json

theorem member?_eraseMember {name other : String} (h : other ≠ name)
    (members : List (String × Json)) :
    member? other (eraseMember name members) = member? other members := by
  induction members with
  | nil => rfl
  | cons m rest ih =>
      obtain ⟨n, v⟩ := m
      by_cases hn : n = name
      · rw [member?_cons, if_neg (hn ▸ h), ← ih]
        simp [eraseMember, hn]
      · rw [member?_cons, ← ih, ← member?_cons]
        simp [eraseMember, hn]

theorem member?_eraseMember_self (name : String) (members : List (String × Json)) :
    member? name (eraseMember name members) = none := by
  induction members with
  | nil => rfl
  | cons m rest ih =>
      obtain ⟨n, v⟩ := m
      by_cases hn : n = name
      · rw [← ih]
        simp [eraseMember, hn]
      · have hrest : eraseMember name ((n, v) :: rest) = (n, v) :: eraseMember name rest := by
          simp [eraseMember, hn]
        rw [hrest, member?_cons, if_neg (Ne.symm hn), ih]

/-- The members with the value of one of them changed. -/
def changeMember (name : String) (f : Json → Json) (members : List (String × Json)) :
    List (String × Json) :=
  members.map fun m => if m.1 = name then (m.1, f m.2) else m

theorem member?_changeMember (name other : String) (f : Json → Json)
    (members : List (String × Json)) :
    member? other (changeMember name f members)
      = if other = name then (member? other members).map f else member? other members := by
  induction members with
  | nil => split <;> rfl
  | cons m rest ih =>
      obtain ⟨n, v⟩ := m
      rw [changeMember] at ih
      by_cases hn : n = name
      · rw [changeMember, List.map_cons, if_pos hn, member?_cons, member?_cons, ih]
        by_cases ho : other = name
        · simp [hn, ho]
        · simp [hn, ho]
      · rw [changeMember, List.map_cons, if_neg hn, member?_cons, member?_cons, ih]
        by_cases ho : other = n
        · subst ho
          simp [hn]
        · simp [ho]

/-- An object with its members changed; any other value as it is. -/
def changeMembers (f : List (String × Json) → List (String × Json)) : Json → Json
  | .object members => .object (f members)
  | v => v

end Json

namespace Node

/-! ## Paths -/

/-- Members without what a path leads to. -/
def dropAt : List String → List (String × Json) → List (String × Json)
  | [], members => members
  | [part], members => Json.eraseMember part members
  | part :: rest, members => Json.changeMember part (Json.changeMembers (dropAt rest)) members

/-- Neither of two paths leads on from the other. -/
def Apart (parts others : List String) : Prop := ¬ parts <+: others ∧ ¬ others <+: parts

instance (parts others : List String) : Decidable (Apart parts others) :=
  inferInstanceAs (Decidable (_ ∧ _))

variable {parts others : List String} {members more : List (String × Json)}

/-- A path begins with a member. -/
theorem follow?_congr {part : String} (h : Json.member? part members = Json.member? part more)
    (rest : List String) : follow? (part :: rest) members = follow? (part :: rest) more := by
  cases rest with
  | nil => exact h
  | cons next rest => rw [follow?, follow?, h] <;> simp

theorem follow?_dropAt_self (parts : List String) (members : List (String × Json)) :
    follow? parts (dropAt parts members) = none := by
  induction parts generalizing members with
  | nil => rfl
  | cons part rest ih =>
      cases rest with
      | nil => exact Json.member?_eraseMember_self part members
      | cons next rest =>
          rw [follow?, dropAt, Json.member?_changeMember, if_pos rfl]
          · cases Json.member? part members with
            | none => rfl
            | some v =>
                cases v with
                | object inner => exact ih inner
                | _ => rfl
          · simp
          · simp

theorem follow?_dropAt (h : Apart parts others) (members : List (String × Json)) :
    follow? others (dropAt parts members) = follow? others members := by
  induction parts generalizing others members with
  | nil => exact absurd List.nil_prefix h.1
  | cons part rest ih =>
      cases others with
      | nil => exact absurd List.nil_prefix h.2
      | cons first others =>
          cases rest with
          | nil =>
              have hne : first ≠ part := by
                rintro rfl
                exact h.1 (by simp)
              exact follow?_congr (Json.member?_eraseMember hne members) others
          | cons next rest =>
              by_cases hne : first = part
              · subst hne
                have hrest : Apart (next :: rest) others := by simpa [Apart] using h
                cases others with
                | nil => exact absurd List.nil_prefix hrest.2
                | cons second others =>
                    rw [follow?, follow?, dropAt, Json.member?_changeMember, if_pos rfl]
                    · cases Json.member? first members with
                      | none => rfl
                      | some v =>
                          cases v with
                          | object inner => exact ih hrest inner
                          | _ => rfl
                    all_goals simp
              · refine follow?_congr ?_ others
                rw [dropAt, Json.member?_changeMember, if_neg hne]
                simp

/-! ## Nodes -/

/-- A node without the attribute at a path. -/
def without (path : String) (node : Node) : Node :=
  { node with attrs := dropAt (pathParts path) node.attrs }

variable {path other : String}

theorem attr?_without_self (path : String) (node : Node) :
    (node.without path).attr? path = none := by
  rw [attr?, without, follow?_dropAt_self]

theorem attr?_without (h : Apart (pathParts path) (pathParts other)) (node : Node) :
    (node.without path).attr? other = node.attr? other := by
  rw [attr?, without, follow?_dropAt h, attr?]

-- What is beside a nested attribute stays.
example (node : Node) :
    (node.without "decoration.color").attr? "decoration.border.color"
      = node.attr? "decoration.border.color" := attr?_without (by decide) node

end Node

end CanvasFlutter
