import CanvasFlutter.Decimal.Read
import CanvasFlutter.Proofs.Dart.Leaf
import CanvasFlutter.Proofs.Decimal.Digits
import CanvasFlutter.Proofs.Widget.Argument

namespace CanvasFlutter

/-!
# `CanvasFlutter.Proofs.Widget.MaxLength` — the longest text that an input takes

A text input is given a `maxLength` if its node has a number that is at least one, and then the whole
part of that. The whole part is written as all numbers are, and numbers are written with an exponent
once they get large, which makes a literal that is no integer.

## Contents
- **Literals.** `IsIntegerLiteral`; the literal of a whole number (`number_of_small`,
  `e_mem_number_of_large`).
- **Attributes.** `Node.HasWhole`; `maxLength?_eq_some_iff`.
- **Fields.** `argument?_textInput`; `maxLength_textInput`.
-/

/-! ## Literals -/

namespace Decimal

open Dart Dart.Lexer

theorem digitsValue_append (digits : Text) (c : Char) :
    digitsValue (digits ++ [c]) = 10 * digitsValue digits + (c.toNat - '0'.toNat) := by
  rw [digitsValue, List.foldl_append]
  rfl

/-- The digits of a number stand for that number. -/
theorem digitsValue_digitsOf (n : Nat) : digitsValue (digitsOf n) = n := by
  have hdigit : ∀ d < 10, (Nat.digitChar d).toNat - '0'.toNat = d := by decide
  induction n using Nat.strongRecOn with
  | ind n ih =>
      by_cases hsmall : n < 10
      · rw [digitsOf, Nat.toDigits_of_lt_base hsmall]
        show 10 * 0 + ((Nat.digitChar n).toNat - '0'.toNat) = n
        rw [hdigit n hsmall]
        omega
      · rw [digitsOf, Nat.toDigits_of_base_le (by decide) (by omega), digitsValue_append,
          hdigit _ (Nat.mod_lt _ (by decide))]
        show 10 * digitsValue (digitsOf (n / 10)) + n % 10 = n
        rw [ih (n / 10) (by omega)]
        omega

/-- The literal of an integer that is not negative: digits and nothing else. -/
def IsIntegerLiteral (t : Text) (n : Nat) : Prop := IsDigits t ∧ digitsValue t = n

variable {whole significand : Nat} {exponent : Int}

/-- The literal of a double that is a whole number. -/
theorem number_eq_magnitude (h : IsNormal significand exponent) (hleast : -52 ≤ exponent)
    (hwhole : IsWholeOf whole significand exponent) :
    ∃ d, shortest? .up ⟨false, significand, exponent⟩ = some d
      ∧ Literal.number (ofWhole whole) = Literal.numberStyle.magnitude d := by
  obtain ⟨d, hd⟩ := Option.isSome_iff_exists.mp
    (isSome_shortest? (b := ⟨false, significand, exponent⟩) h.pos h.le .up)
  refine ⟨d, hd, ?_⟩
  have htie : Literal.numberStyle.tie = .up := rfl
  rw [Literal.number, Style.write, ofFloat?_ofWhole h hleast hwhole]
  simp only [htie, hd]
  rfl

/-- **A whole number below `10 ^ 15` has its digits for a literal.** -/
theorem number_of_small (h : IsNormal significand exponent) (hleast : -52 ≤ exponent)
    (hwhole : IsWholeOf whole significand exponent) (hsmall : whole < 10 ^ 15) :
    Literal.number (ofWhole whole) = digitsOf whole := by
  obtain ⟨d, hd, heq⟩ := number_eq_magnitude h hleast hwhole
  rw [shortest?_of_small hwhole (hwhole.pos h.pos) h.hidden h.le hsmall] at hd
  obtain rfl := Option.some.inj hd
  have hlength : (digitsOf whole).length ≤ 15 :=
    (Nat.length_toDigits_le_iff (by decide) (by decide)).mpr hsmall
  have hfixed : Literal.numberStyle.fixedFrom ≤ (Numeral.ofUnits whole 0).exponent
      ∧ (Numeral.ofUnits whole 0).exponent ≤ Literal.numberStyle.fixedTo := by
    simp only [Literal.numberStyle, Numeral.ofUnits]
    omega
  rw [heq, Style.magnitude, if_pos hfixed, positional_ofUnits rfl]

theorem e_mem_scientific (s : Style) (d : Numeral) : 'e' ∈ s.scientific d := by
  simp [Style.scientific]

/-- **From `10 ^ 15` on the literal of a whole number has an exponent.** -/
theorem e_mem_number_of_large (h : IsNormal significand exponent) (hleast : -52 ≤ exponent)
    (hwhole : IsWholeOf whole significand exponent) (hlarge : 10 ^ 15 ≤ whole) :
    'e' ∈ Literal.number (ofWhole whole) := by
  obtain ⟨d, hd, heq⟩ := number_eq_magnitude h hleast hwhole
  have hexponent := le_exponent_of_large hwhole hlarge hd
  have hnotFixed : ¬ (Literal.numberStyle.fixedFrom ≤ d.exponent
      ∧ d.exponent ≤ Literal.numberStyle.fixedTo) := by
    simp only [Literal.numberStyle]
    omega
  rw [heq, Style.magnitude, if_neg hnotFixed]
  exact e_mem_scientific _ _

/-- The literal of a whole part is that of an integer just below `10 ^ 15`. -/
theorem isIntegerLiteral_wholePart_iff {x : Float} {b : Binary} (hb : Binary.ofFloat? x = some b)
    (hfloor : 0 < b.floor) :
    IsIntegerLiteral (Literal.number (wholePart x)) b.floor ↔ b.floor < 10 ^ 15 := by
  obtain ⟨significand, exponent, hnormal, hleast, hwhole⟩ := exists_isNormal_floor hb hfloor
  rw [wholePart, hb]
  constructor
  · intro hliteral
    apply Nat.lt_of_not_le
    intro hlarge
    have hdigit := hliteral.1.2 'e' (e_mem_number_of_large hnormal hleast hwhole hlarge)
    exact absurd hdigit (by decide)
  · intro hsmall
    simp only
    rw [number_of_small hnormal hleast hwhole hsmall]
    exact ⟨isDigits_digitsOf _, digitsValue_digitsOf _⟩

end Decimal

open Dart Decimal

/-! ## Attributes -/

/-- Whether an attribute is a finite number that is not negative and has this whole part. -/
def Node.HasWhole (node : Node) (path : String) (whole : Nat) : Prop :=
  ∃ x b, node.number? path = some x ∧ Binary.ofFloat? x = some b ∧ b.negative = false
    ∧ b.floor = whole

theorem Node.isFinite_number? {node : Node} {path : String} {x : Float}
    (h : node.number? path = some x) : isFinite x = true := by
  rw [Node.number?, Option.filter_eq_some_iff] at h
  exact h.2

namespace Widget

/-- The longest text is the whole part of the attribute, if that is at least one. -/
theorem maxLength?_eq_some_iff {a : Attributes} {y : Float} :
    maxLength? a = some y ↔ ∃ x b, a.node.number? "maxLength" = some x
      ∧ Binary.ofFloat? x = some b ∧ b.negative = false ∧ 0 < b.floor ∧ y = wholePart x := by
  rw [maxLength?]
  cases hx : a.node.number? "maxLength" with
  | none => simp
  | some x =>
      obtain ⟨b, hb⟩ := Option.isSome_iff_exists.mp (Node.isFinite_number? hx)
      have hone := one_le_iff hb
      constructor
      · intro hsome
        simp only at hsome
        split at hsome
        · next hle =>
            obtain ⟨hsign, hfloor⟩ := hone.mp hle
            exact ⟨x, b, rfl, hb, hsign, hfloor, (Option.some.inj hsome).symm⟩
        · simp at hsome
      · rintro ⟨x', b', hx', hb', hsign, hfloor, rfl⟩
        obtain rfl := Option.some.inj hx'
        obtain rfl : b = b' := Option.some.inj (hb.symm.trans hb')
        simp only
        rw [if_pos (hone.mpr ⟨hsign, hfloor⟩)]

/-! ## Fields -/

/-- The field stands in the box of a text input. -/
theorem argument?_textInput (a : Attributes) :
    ∃ args, (textInput a).argument? "child" = some (.call "TextField" args)
      ∧ (Code.call "TextField" args).argument? "maxLength" = (maxLength? a).map Code.number := by
  unfold textInput
  extract_lets inputType multiline linesArgs field heightArg
  have hheight : Code.valueOf? "child" heightArg = none := by
    simp only [heightArg]
    split
    · exact Code.valueOf?_named_of_ne (by decide)
    · rfl
  have hlines : Code.valueOf? "maxLength" linesArgs = none := by
    simp only [linesArgs]
    split
    · exact (Code.valueOf?_named_of_ne (by decide)).trans (Code.valueOf?_named_of_ne (by decide))
    · exact (Code.valueOf?_named_of_ne (by decide)).trans (Code.valueOf?_named_of_ne (by decide))
  have hfield : ∃ args, field = .call "TextField" args
      ∧ Code.valueOf? "maxLength" args = (maxLength? a).map Code.number := by
    refine ⟨_, rfl, ?_⟩
    have hfront : ∀ enabled keyboard,
        Code.valueOf? "maxLength" [flagArg "enabled" enabled, wordArg "keyboardType" keyboard] = none := by
      intro enabled keyboard
      exact (Code.valueOf?_named_of_ne (by decide)).trans (Code.valueOf?_named_of_ne (by decide))
    have hback : ∀ style decoration handler, Code.valueOf? "maxLength"
        [.named "style" style, .named "decoration" decoration, .named "onChanged" handler] = none := by
      intro style decoration handler
      exact (Code.valueOf?_named_of_ne (by decide)).trans
        ((Code.valueOf?_named_of_ne (by decide)).trans (Code.valueOf?_named_of_ne (by decide)))
    rw [Code.valueOf?_append, Code.valueOf?_append, Code.valueOf?_append, hfront, hlines, hback,
      Code.valueOf?_namedIfAny_self, Option.none_or, Option.none_or, Option.or_none]
  obtain ⟨args, heq, hvalue⟩ := hfield
  refine ⟨args, ?_, hvalue⟩
  rw [Code.argument?, List.cons_append, numberArg, Code.valueOf?_named_of_ne (by decide),
    Code.valueOf?_append, hheight, Option.none_or, Code.valueOf?_named_self, heq]

/-- **The longest text of an input.** Its field has a `maxLength` just if the node has a number that is
at least one. The literal is that of the whole part, an integer, only below `10 ^ 15`. -/
theorem maxLength_textInput {node : Node} (h : node.kind = .textInput) :
    ∃ args, (lower node).bind (Code.within? ["child", "child"]) = some (.call "TextField" args)
      ∧ ((∃ value, (Code.call "TextField" args).argument? "maxLength" = some value)
        ↔ ∃ whole, 0 < whole ∧ node.HasWhole "maxLength" whole)
      ∧ ∀ value whole, (Code.call "TextField" args).argument? "maxLength" = some value →
        node.HasWhole "maxLength" whole → (IsIntegerLiteral value.render whole ↔ whole < 10 ^ 15) := by
  obtain ⟨args, hchild, hvalue⟩ := argument?_textInput (Attributes.of node)
  have hlower : lower node = some (place (Attributes.of node) (textInput (Attributes.of node))) := by
    obtain ⟨kind, id, attrs, children⟩ := node
    obtain rfl : kind = .textInput := h
    rfl
  -- what the argument is if it is there
  have hsome : ∀ value, (Code.call "TextField" args).argument? "maxLength" = some value →
      ∃ x b, node.number? "maxLength" = some x ∧ Binary.ofFloat? x = some b ∧ b.negative = false
        ∧ 0 < b.floor ∧ value = .number (wholePart x) := by
    intro value hsome
    rw [hvalue] at hsome
    obtain ⟨y, hy, rfl⟩ := Option.map_eq_some_iff.mp hsome
    obtain ⟨x, b, hx, hb, hsign, hfloor, rfl⟩ := maxLength?_eq_some_iff.mp hy
    exact ⟨x, b, hx, hb, hsign, hfloor, rfl⟩
  refine ⟨args, ?_, ⟨?_, ?_⟩, ?_⟩
  · rw [hlower, Option.bind_some, Code.within?, argument?_place, Option.bind_some, Code.within?, hchild]
    rfl
  · rintro ⟨value, hsomeValue⟩
    obtain ⟨x, b, hx, hb, hsign, hfloor, -⟩ := hsome value hsomeValue
    exact ⟨b.floor, hfloor, x, b, hx, hb, hsign, rfl⟩
  · rintro ⟨whole, hpos, x, b, hx, hb, hsign, rfl⟩
    refine ⟨.number (wholePart x), ?_⟩
    rw [hvalue, maxLength?_eq_some_iff.mpr ⟨x, b, hx, hb, hsign, hpos, rfl⟩]
    rfl
  · rintro value whole hsomeValue ⟨x, b, hx, hb, -, rfl⟩
    obtain ⟨x', b', hx', hb', -, hfloor, rfl⟩ := hsome value hsomeValue
    obtain rfl : x = x' := Option.some.inj (hx.symm.trans hx')
    obtain rfl : b = b' := Option.some.inj (hb.symm.trans hb')
    exact isIntegerLiteral_wholePart_iff hb hfloor

/-- An input whose longest text is `10 ^ 15`. -/
def vastInput : Node := ⟨.textInput, none, [("maxLength", .number (.int 1000000000000000))], []⟩

theorem ofFloat?_vast :
    Binary.ofFloat? (ofWhole 1000000000000000) = some ⟨false, 8000000000000000, -3⟩ :=
  ofFloat?_ofWhole ⟨by decide, by decide, by decide, by decide⟩ (by decide) (by rw [IsWholeOf]; decide)

theorem hasWhole_vastInput : vastInput.HasWhole "maxLength" 1000000000000000 := by
  have hattr : vastInput.attr? "maxLength" = some (.number (.int 1000000000000000)) := by rfl
  have hfinite : isFinite (ofWhole 1000000000000000) = true := by
    rw [isFinite, ofFloat?_vast]
    rfl
  refine ⟨_, _, ?_, ofFloat?_vast, rfl, by decide⟩
  rw [Node.number?, hattr]
  exact Option.filter_eq_some_iff.mpr ⟨rfl, hfinite⟩

theorem maxLength_textInput_vast :
    ∃ args value, (lower vastInput).bind (Code.within? ["child", "child"]) = some (.call "TextField" args)
      ∧ (Code.call "TextField" args).argument? "maxLength" = some value
      ∧ ¬ IsIntegerLiteral value.render 1000000000000000 := by
  have hkind : vastInput.kind = .textInput := rfl
  obtain ⟨args, hfield, hpresent, hliteral⟩ := maxLength_textInput hkind
  obtain ⟨value, hvalue⟩ := hpresent.mpr ⟨_, by decide, hasWhole_vastInput⟩
  have hinteger := hliteral value _ hvalue hasWhole_vastInput
  exact ⟨args, value, hfield, hvalue, mt hinteger.mp (by decide)⟩

end Widget

end CanvasFlutter
