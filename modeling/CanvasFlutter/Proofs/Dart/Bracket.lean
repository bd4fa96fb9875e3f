import CanvasFlutter.Proofs.Dart.Piece

namespace CanvasFlutter.Dart

/-!
# `CanvasFlutter.Proofs.Dart.Bracket` — brackets that match

The brackets of a row of tokens match if each closes the last one that is still open. Brackets in
string literals are no tokens of their own. An angle bracket counts here too: in generated source it
only ever stands around the arguments of a type.

## Contents
- **Nesting.** `nest` reads tokens with the brackets that are still to be closed; `Nested`.
- **Rows.** `Nested.append`, `Nested.enclosed`.
- **Pieces.** The same for rows of pieces, and what each piece is by itself.
-/

/-! ## Nesting -/

/-- The bracket that closes an opening one. -/
def Token.closer? : Token → Option Token
  | .mark ['('] => some (.mark [')'])
  | .mark ['['] => some (.mark [']'])
  | .mark ['{'] => some (.mark ['}'])
  | .mark ['<'] => some (.mark ['>'])
  | _ => none

/-- The closing brackets. -/
def closers : List Token := [.mark [')'], .mark [']'], .mark ['}'], .mark ['>']]

/-- The brackets that are still to be closed after a token, the innermost first. -/
def nestStep (pending : List Token) (t : Token) : Option (List Token) :=
  match t.closer? with
  | some closer => some (closer :: pending)
  | none =>
      if t ∈ closers then
        match pending with
        | [] => none
        | closer :: rest => if t = closer then some rest else none
      else some pending

/-- The brackets that are still to be closed after some tokens. -/
def nest (pending ts : List Token) : Option (List Token) := ts.foldlM nestStep pending

/-- All brackets of these tokens match. -/
def Nested (ts : List Token) : Prop := nest [] ts = some []

instance (ts : List Token) : Decidable (Nested ts) := inferInstanceAs (Decidable (_ = _))

@[simp] theorem nest_nil (pending : List Token) : nest pending [] = some pending := rfl

theorem nest_append (pending ts us : List Token) :
    nest pending (ts ++ us) = (nest pending ts).bind (nest · us) := List.foldlM_append

theorem nestStep_append {pending after : List Token} {t : Token}
    (h : nestStep pending t = some after) (outer : List Token) :
    nestStep (pending ++ outer) t = some (after ++ outer) := by
  unfold nestStep at h ⊢
  split at h
  · cases h
    rfl
  · split at h
    · next hcloser =>
        rw [if_pos hcloser]
        cases pending with
        | nil => simp at h
        | cons closer rest =>
            simp only at h
            split at h
            · next heq =>
                cases h
                simp [heq]
            · simp at h
    · next hcloser =>
        rw [if_neg hcloser]
        cases h
        rfl

/-- What stands around changes nothing. -/
theorem nest_frame {pending after ts : List Token} (h : nest pending ts = some after)
    (outer : List Token) : nest (pending ++ outer) ts = some (after ++ outer) := by
  induction ts generalizing pending with
  | nil =>
      cases h
      rfl
  | cons t ts ih =>
      rw [nest, List.foldlM_cons] at h ⊢
      obtain ⟨middle, hstep, hrest⟩ := Option.bind_eq_some_iff.mp h
      rw [nestStep_append hstep]
      exact ih hrest

theorem Nested.nest {ts : List Token} (h : Nested ts) (pending : List Token) :
    nest pending ts = some pending := nest_frame h pending

theorem nest_opens {ts : List Token} {closer : Token} (h : nest [] ts = some [closer])
    (pending : List Token) : nest pending ts = some (closer :: pending) := nest_frame h pending

theorem nest_closes {ts : List Token} {closer : Token} (h : nest [closer] ts = some [])
    (pending : List Token) : nest (closer :: pending) ts = some pending := nest_frame h pending

/-! ## Rows -/

theorem nested_nil : Nested [] := rfl

theorem Nested.append {ts us : List Token} (ht : Nested ts) (hu : Nested us) :
    Nested (ts ++ us) := by
  rw [Nested, nest_append, ht, Option.bind_some, hu]

theorem nested_flatMap {α : Type} {items : List α} {f : α → List Token}
    (h : ∀ a ∈ items, Nested (f a)) : Nested (items.flatMap f) := by
  induction items with
  | nil => exact nested_nil
  | cons a items ih =>
      exact (h a (by simp)).append (ih fun b hb => h b (by simp [hb]))

/-- The pairs of brackets. -/
def brackets : List (Token × Token) :=
  [(.mark ['('], .mark [')']), (.mark ['['], .mark [']']), (.mark ['{'], .mark ['}']),
    (.mark ['<'], .mark ['>'])]

/-- Matching brackets with one more pair around them. -/
theorem Nested.enclosed {ts : List Token} (h : Nested ts) {o c : Token}
    (hpair : (o, c) ∈ brackets) : Nested (o :: (ts ++ [c])) := by
  have hpairs : ∀ p ∈ brackets, CanvasFlutter.Dart.nest [] [p.1] = some [p.2]
      ∧ CanvasFlutter.Dart.nest [p.2] [p.2] = some [] := by decide
  obtain ⟨hopen, hclose⟩ := hpairs _ hpair
  rw [Nested, ← List.singleton_append, nest_append, hopen, Option.bind_some, nest_append, h.nest,
    Option.bind_some, hclose]

/-! ## Pieces -/

/-- A token that is no bracket. -/
theorem nested_singleton {t : Token} (h : t.closer? = none) (hc : t ∉ closers) : Nested [t] := by
  simp [Nested, nest, nestStep, h, hc]

theorem nested_word (source : Text) : Nested [.word source] :=
  nested_singleton rfl (by simp [closers])

theorem nested_string (source : Text) : Nested [.string source] :=
  nested_singleton rfl (by simp [closers])

theorem nested_numeral (source : Text) : Nested [.number source] :=
  nested_singleton rfl (by simp [closers])

/-- All brackets of these pieces match. -/
def NestedRow (row : List Piece) : Prop := Nested (row.flatMap Piece.tokens)

theorem nestedRow_nil : NestedRow [] := nested_nil

theorem nestedRow_singleton {p : Piece} (h : Nested p.tokens) : NestedRow [p] := by
  simpa [NestedRow] using h

theorem NestedRow.append {row more : List Piece} (h : NestedRow row) (hmore : NestedRow more) :
    NestedRow (row ++ more) := by
  rw [NestedRow, List.flatMap_append]
  exact Nested.append h hmore

theorem NestedRow.cons {row : List Piece} (h : NestedRow row) {p : Piece} (hp : Nested p.tokens) :
    NestedRow (p :: row) := (nestedRow_singleton hp).append h

theorem NestedRow.enclosed {row : List Piece} (h : NestedRow row) {o c : String}
    (hpair : (o, c) ∈ [("(", ")"), ("[", "]"), ("\x7b", "\x7d")]) :
    NestedRow (.fixed o :: (row ++ [.fixed c])) := by
  have hpairs : ∀ p ∈ [("(", ")"), ("[", "]"), ("\x7b", "\x7d")],
      ∃ o c, (o, c) ∈ brackets ∧ Piece.tokens (.fixed p.1) = [o]
        ∧ Piece.tokens (.fixed p.2) = [c] := by
    obtain ⟨-, -, h1, h2, h3, h4, h5, h6, -⟩ := Piece.tokens_sign
    simp only [List.forall_mem_cons]
    exact ⟨⟨_, _, by decide, h1, h2⟩, ⟨_, _, by decide, h3, h4⟩, ⟨_, _, by decide, h5, h6⟩, by simp⟩
  obtain ⟨o', c', hbrackets, ho, hc⟩ := hpairs _ hpair
  simpa [NestedRow, ho, hc] using Nested.enclosed h hbrackets

theorem nested_sign : ∀ s ∈ [",", ";", ":", ".", "!", "?", "??", "=", "false", "return"],
    Nested (Piece.tokens (.fixed s)) := by decide

theorem nestedRow_commas {rows : List (List Piece)} (h : ∀ row ∈ rows, NestedRow row) :
    NestedRow (Piece.commas rows) := by
  induction rows with
  | nil => exact nestedRow_nil
  | cons row rows ih =>
      have hrow := h row (by simp)
      cases rows with
      | nil => exact hrow
      | cons next rows =>
          exact hrow.append ((ih fun r hr => h r (by simp [hr])).cons (nested_sign "," (by simp)))

theorem nestedRow_parts {sign : String} (hsign : Nested (Piece.tokens (.fixed sign)))
    {rows : List (List Piece)} (h : ∀ row ∈ rows, NestedRow row) :
    NestedRow (Piece.parts sign rows) := by
  rw [NestedRow, Piece.parts, List.flatMap_assoc]
  refine nested_flatMap fun row hrow => ?_
  exact (h row hrow).append (nestedRow_singleton hsign)

theorem nested_number (x : Float) : Nested (Piece.tokens (.number x)) := by
  cases h : Decimal.isFinite x with
  | true =>
      obtain ⟨t, ht, heq | heq⟩ := Lexer.exists_numeral h
      · rw [Piece.tokens, heq, (Lexer.phrase_numeral ht).lexed]
        exact nested_numeral t
      · rw [Piece.tokens, heq, (Lexer.phrase_minus ht).lexed]
        exact (nested_singleton (t := .mark ['-']) (by decide) (by decide)).append
          (nested_numeral t)
  | false =>
      have hwords : ∀ s ∈ ["NaN", "-inf", "inf"], Nested (Lexer.lexed s.toList) := by decide
      obtain ⟨s, hs, heq⟩ := Lexer.number_of_not_isFinite h
      rw [Piece.tokens, heq]
      exact hwords s hs

theorem nested_paint (p : Paint) : Nested (Piece.tokens (.paint p)) := by
  cases p with
  | transparent => decide
  | color argb =>
      exact (nested_word _).append ((nested_numeral _).enclosed (by decide))

theorem nested_icon (name : Text) : Nested (Piece.tokens (.icon name)) :=
  (nested_word _).append
    ((nested_singleton (t := .mark ['.']) (by decide) (by decide)).append (nested_word name))

theorem nested_entry (map key : String) : Nested (Piece.tokens (.entry map key)) :=
  (nested_word _).append ((nested_string _).enclosed (by decide))

end CanvasFlutter.Dart
