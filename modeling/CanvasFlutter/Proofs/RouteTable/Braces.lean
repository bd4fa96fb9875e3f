import CanvasFlutter.RouteTable.Scanner

namespace CanvasFlutter.Scanner

/-!
# `CanvasFlutter.Proofs.RouteTable.Braces` — the brace that closes a table

## Contents
- **Closing.** `closingBrace?_eq_some`: what is found is a closing brace.
- **Strings.** `staysIn`; `closingFrom?_inString`: a string is passed over.
- **Neutral texts.** `Neutral` texts change neither the depth nor the state of the scanner, so they
  may be put between the braces of a table: `closingBrace?_of_neutral`.
-/

/-! ## Closing -/

theorem closingFrom?_eq_some {depth n : Nat} {state : State} {t : Text}
    (h : closingFrom? depth (mark state t) = some n) : ∃ inner rest, t = inner ++ '}' :: rest ∧
      inner.length = n := by
  induction t generalizing depth n state with
  | nil => simp [mark, closingFrom?] at h
  | cons c t ih =>
      -- Whatever the depth becomes, the brace is found in the rest.
      have later : ∀ depth',
          (closingFrom? depth' (mark (state.next c t.head?) t)).map (· + 1) = some n →
          ∃ inner rest, c :: t = inner ++ '}' :: rest ∧ inner.length = n := by
        intro depth' h'
        obtain ⟨m, hm, rfl⟩ := Option.map_eq_some_iff.mp h'
        obtain ⟨inner, rest, rfl, rfl⟩ := ih hm
        exact ⟨c :: inner, rest, rfl, rfl⟩
      rw [mark, closingFrom?] at h
      split at h
      · exact later _ h
      · split at h
        · next hc =>
            split at h
            · obtain rfl := Option.some.inj h
              simp only [Bool.and_eq_true, beq_iff_eq] at hc
              exact ⟨[], t, by simp [hc.2], rfl⟩
            · exact later _ h
        · exact later _ h

/-- What is found is a closing brace. -/
theorem closingBrace?_eq_some {t : Text} {n : Nat} (h : closingBrace? t = some n) :
    ∃ inner rest, t = inner ++ '}' :: rest ∧ inner.length = n := closingFrom?_eq_some h

/-! ## Strings -/

section

variable {depth : Nat}

/-- Whether a string goes on to the end of a text: every quote in it has a backslash in front, and
no backslash is left at the end. -/
def staysIn (quote : Char) : (escaped : Bool) → Text → Bool
  | escaped, [] => !escaped
  | true, _ :: t => staysIn quote false t
  | false, c :: t => c != quote && staysIn quote (c == '\\') t

/-- In a string, right after a backslash or not. -/
def State.inString (quote : Char) (escaped : Bool) : State :=
  if escaped then .escaped quote else .quoted quote

theorem staysIn_of_no_quote {quote : Char} {s : Text} (h : ∀ c ∈ s, c ≠ quote ∧ c ≠ '\\') :
    staysIn quote false s = true := by
  induction s with
  | nil => rfl
  | cons c s ih =>
      obtain ⟨⟨hquote, hslash⟩, hs⟩ := List.forall_mem_cons.mp h
      have hescaped : (c == '\\') = false := by simpa using hslash
      rw [staysIn, hescaped, ih hs]
      simpa using hquote

/-- Outside of code every character is passed over. -/
theorem closingFrom?_cons {s : State} (hs : s ≠ .code) (c : Char) (t : Text) :
    closingFrom? depth (mark s (c :: t))
      = (closingFrom? depth (mark (s.next c t.head?) t)).map (· + 1) := by
  rw [mark, closingFrom?, decide_eq_false hs]
  simp

theorem map_add_add {o : Option Nat} (m n : Nat) :
    (o.map (· + m)).map (· + n) = o.map (· + (m + n)) := by
  rw [Option.map_map]
  congr 1
  funext k
  exact Nat.add_assoc k m n

theorem inString_ne_code (quote : Char) (escaped : Bool) :
    State.inString quote escaped ≠ .code := by
  cases escaped
  · exact State.noConfusion
  · exact State.noConfusion

theorem next_escaped (quote c : Char) (following : Option Char) :
    (State.inString quote true).next c following = State.inString quote false := rfl

theorem next_quoted {quote c : Char} (hc : c ≠ quote) (following : Option Char) :
    (State.inString quote false).next c following = State.inString quote (c == '\\') := by
  show (if c = quote then State.code else if c = '\\' then .escaped quote else .quoted quote) = _
  rw [if_neg hc, State.inString]
  simp

/-- A string is passed over up to its closing quote. -/
theorem closingFrom?_inString {quote : Char} {escaped : Bool} {body : Text}
    (h : staysIn quote escaped body = true) (t : Text) :
    closingFrom? depth (mark (State.inString quote escaped) (body ++ quote :: t))
      = (closingFrom? depth (mark .code t)).map (· + (body.length + 1)) := by
  induction body generalizing escaped with
  | nil =>
      obtain rfl : escaped = false := by simpa [staysIn] using h
      have hnext : (State.inString quote false).next quote t.head? = .code := if_pos rfl
      rw [List.nil_append, closingFrom?_cons (inString_ne_code quote false), hnext]
      rfl
  | cons c body ih =>
      rw [List.cons_append, closingFrom?_cons (inString_ne_code quote escaped)]
      cases escaped with
      | true =>
          rw [next_escaped, ih h, map_add_add]
          rfl
      | false =>
          obtain ⟨hc, hrest⟩ : c ≠ quote ∧ staysIn quote (c == '\\') body = true := by
            simpa [staysIn] using h
          rw [next_quoted hc, ih hrest, map_add_add]
          rfl

end

/-! ## Neutral texts -/

/-- A text in code after which the scanner is in code again, at the same depth. -/
def Neutral (s : Text) : Prop :=
  ∀ depth t, closingFrom? depth (mark .code (s ++ t))
    = (closingFrom? depth (mark .code t)).map (· + s.length)

theorem neutral_nil : Neutral [] := fun depth t => by
  cases h : closingFrom? depth (mark .code t) <;> simp [h]

theorem Neutral.append {s t : Text} (hs : Neutral s) (ht : Neutral t) : Neutral (s ++ t) := by
  intro depth u
  rw [List.append_assoc, hs, ht, Option.map_map]
  congr 1
  funext n
  simp only [Function.comp_apply, List.length_append]
  omega

theorem Neutral.flatMap {α : Type} {f : α → Text} {l : List α} (h : ∀ a ∈ l, Neutral (f a)) :
    Neutral (l.flatMap f) := by
  induction l with
  | nil => exact neutral_nil
  | cons a l ih =>
      rw [List.flatMap_cons]
      exact (h a (by simp)).append (ih fun b hb => h b (by simp [hb]))

/-- A character that neither opens nor closes anything. -/
def isPlain (c : Char) : Bool := !(['\'', '"', '/', '{', '}'].contains c)

theorem next_code_of_isPlain {c : Char} (h : isPlain c = true) (following : Option Char) :
    State.code.next c following = .code := by
  simp [isPlain] at h
  simp [State.next, h]

theorem neutral_of_isPlain {c : Char} (h : isPlain c = true) : Neutral [c] := by
  intro depth t
  have hnext := next_code_of_isPlain h t.head?
  simp [isPlain] at h
  simp [mark, closingFrom?, hnext, h]

theorem neutral_of_all_isPlain {s : Text} (h : ∀ c ∈ s, isPlain c = true) : Neutral s := by
  have := Neutral.flatMap (f := fun c => [c]) (l := s) fun c hc => neutral_of_isPlain (h c hc)
  simpa using this

/-- A string without quotes or backslashes in it. -/
theorem neutral_string {s : Text} (h : ∀ c ∈ s, c ≠ '\'' ∧ c ≠ '\\') :
    Neutral ('\'' :: (s ++ ['\''])) := by
  intro depth t
  have hnext : ∀ f, State.code.next '\'' f = State.inString '\'' false := fun f => rfl
  have hs : closingFrom? depth (mark (State.inString '\'' false) (s ++ '\'' :: t))
      = (closingFrom? depth (mark .code t)).map (· + (s.length + 1)) :=
    closingFrom?_inString (staysIn_of_no_quote h) t
  rw [List.cons_append, List.append_assoc, List.singleton_append, mark, hnext, closingFrom?, hs]
  simp [Option.map_map, Function.comp_def, Nat.add_assoc]

/-- The brace after a neutral text closes. -/
theorem closingBrace?_of_neutral {s : Text} (h : Neutral s) (t : Text) :
    closingBrace? (s ++ '}' :: t) = some s.length := by
  rw [closingBrace?, h]
  simp [mark, closingFrom?]

end CanvasFlutter.Scanner
