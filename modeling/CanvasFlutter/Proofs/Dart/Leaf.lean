import CanvasFlutter.Dart.Literal
import CanvasFlutter.Proofs.Dart.Token
import CanvasFlutter.Proofs.Route.Lines

namespace CanvasFlutter

/-!
# `CanvasFlutter.Proofs.Dart.Leaf` — how words, literals and colours are read

Whatever text, number or colour a canvas holds, what is written for it is one token, or a few that
are always the same.

## Contents
- **Words.** `Text.IsIdentifier`; `phrase_word`.
- **Strings.** `phrase_string`: the literal of any text at all is one string token.
- **Numerals.** `IsNumeral`, `phrase_numeral`, `phrase_minus`; `phrase_hex` for colours.
- **Numbers.** The literal of a finite number is a numeral, perhaps after a minus sign
  (`exists_numeral`); `phrase_number`.
-/

/-! ## Words -/

namespace Text

/-- A letter or an underscore, and then letters, digits and underscores, all ASCII. -/
def IsIdentifier : Text → Prop
  | [] => False
  | c :: rest => (c.isAlpha || c == '_') = true ∧ IsName rest

instance : (t : Text) → Decidable (IsIdentifier t)
  | [] => .isFalse id
  | _ :: _ => inferInstanceAs (Decidable (_ ∧ _))

theorem isAsciiWord_of_first {c : Char} (h : (c.isAlpha || c == '_') = true) :
    isAsciiWord c = true := by
  rcases Bool.or_eq_true_iff.mp h with halpha | hunderscore
  · exact isAsciiWord_of_isAlphanum (Bool.or_eq_true_iff.mpr (.inl halpha))
  · exact Bool.or_eq_true_iff.mpr (.inr hunderscore)

/-- What holds of every character that an identifier may begin with. -/
theorem forall_first {p : Char → Prop}
    (h : ∀ n < 128, ((Char.ofNat n).isAlpha || Char.ofNat n == '_') = true → p (Char.ofNat n))
    {c : Char} (hc : (c.isAlpha || c == '_') = true) : p c :=
  forall_isAsciiWord (p := fun c => (c.isAlpha || c == '_') = true → p c) (fun n hn _ => h n hn)
    (isAsciiWord_of_first hc) hc

theorem IsIdentifier.isName {t : Text} (h : IsIdentifier t) : IsName t := by
  cases t with
  | nil => exact h.elim
  | cons c t => exact isName_cons.mpr ⟨isAsciiWord_of_first h.1, h.2⟩

end Text

namespace Dart.Lexer

open Text

theorem run_of_goOn? {mode next : Mode} {c : Char} (h : mode.goOn? c = some next) (t : Text) :
    run mode (c :: t) = run next t := by
  rw [run, Mode.step?, h]
  cases ht : run next t <;> simp [ht]

theorem run_of_begin? {next : Mode} {c : Char} (h : begin? c = some next) (t : Text) :
    run .between (c :: t) = run next t := by
  have hstep : Mode.between.step? c = some ([], next) := by
    simp [Mode.step?, Mode.goOn?, Mode.clashes, Mode.tokens?, h]
  rw [run, hstep]
  cases ht : run next t <;> simp [ht]

theorem run_word (source : Text) {t : Text} (h : IsName t) :
    run (.word source) t = some ([], .word (source ++ t)) := by
  induction t generalizing source with
  | nil => simp [run]
  | cons c t ih =>
      obtain ⟨hc, ht⟩ := isName_cons.mp h
      have hgo : (Mode.word source).goOn? c = some (.word (source ++ [c])) := by
        simp [Mode.goOn?, isWordChar, hc]
      rw [run_of_goOn? hgo, ih _ ht, List.append_assoc, List.singleton_append]

/-- A delimiter is no character of a word and no quote. -/
theorem of_mem_delimiters : ∀ c ∈ delimiters, isWordChar c = false ∧ c ≠ '\'' :=
  Text.forall_of_all (by decide)

theorem isSoft_word (source : Text) : (Mode.word source).isSoft = true := by
  refine Bool.and_eq_true_iff.mpr ⟨rfl, List.all_eq_true.mpr fun c hc => ?_⟩
  obtain ⟨hword, hquote⟩ := of_mem_delimiters c hc
  simp [Mode.goOn?, Mode.clashes, hword, hquote]

theorem isSoft_closed (source : Text) : (Mode.closed source).isSoft = true := by
  refine Bool.and_eq_true_iff.mpr ⟨rfl, List.all_eq_true.mpr fun c hc => ?_⟩
  simp [Mode.goOn?, Mode.clashes, (of_mem_delimiters c hc).2]

theorem phrase_word {t : Text} (h : IsIdentifier t) : Phrase t [.word t] := by
  cases t with
  | nil => exact h.elim
  | cons c t =>
      obtain ⟨hc, ht⟩ := h
      have hbegin : begin? c = some (.word [c]) :=
        forall_first (p := fun c => begin? c = some (.word [c])) (by decide) hc
      have hrun : run .between (c :: t) = some ([], .word (c :: t)) := by
        rw [run_of_begin? hbegin, run_word _ ht]
        rfl
      exact phrase_of_run hrun (isSoft_word _) rfl

/-! ## Strings -/

theorem run_escape (source : Text) (c : Char) (t : Text) :
    run (.quoted source) (Literal.escape c ++ t) = run (.quoted (source ++ Literal.escape c)) t := by
  have escaped : ∀ d, d ≠ 'u' → d ≠ 'x' → d ≠ '\n' → d ≠ '\r' →
      run (.quoted source) ('\\' :: d :: t) = run (.quoted (source ++ ['\\', d])) t := by
    intro d hu hx hn hr
    have hgo : (Mode.escaped (source ++ ['\\'])).goOn? d
        = some (.quoted (source ++ ['\\'] ++ [d])) := by simp [Mode.goOn?, hu, hx, hn, hr]
    rw [run_of_goOn? (show (Mode.quoted source).goOn? '\\' = some (.escaped (source ++ ['\\']))
      from rfl), run_of_goOn? hgo, List.append_assoc]
    rfl
  rw [Literal.escape.eq_def]
  split
  case h_7 hbackslash hquote hdollar hn hr _ =>
    have hgo : (Mode.quoted source).goOn? c = some (.quoted (source ++ [c])) := by
      rw [Mode.goOn?, if_neg hquote, if_neg hbackslash, if_neg]
      rintro (h | h | h)
      · exact hdollar h
      · exact hn h
      · exact hr h
    exact run_of_goOn? hgo t
  all_goals exact escaped _ (by decide) (by decide) (by decide) (by decide)

theorem run_string (t : Text) :
    run .between (Literal.string t) = some ([], .closed (Literal.string t)) := by
  have inside : ∀ (source t rest : Text), run (.quoted source) (t.flatMap Literal.escape ++ rest)
      = run (.quoted (source ++ t.flatMap Literal.escape)) rest := by
    intro source t rest
    induction t generalizing source with
    | nil => simp
    | cons c t ih => rw [List.flatMap_cons, List.append_assoc, run_escape, ih, List.append_assoc]
  rw [Literal.string, run_of_begin? (show begin? '\'' = some (.quoted ['\'']) from rfl), inside,
    run_of_goOn? (show Mode.goOn? (.quoted _) '\'' = some (.closed _) from rfl)]
  simp [run]

/-- **The literal of a text is one string**, whatever the text holds. -/
theorem phrase_string (t : Text) :
    Phrase (Literal.string t) [.string (Literal.string t)] :=
  phrase_of_run (run_string t) (isSoft_closed _) rfl

/-! ## Numerals -/

/-- How far a number has been read after a text that goes on with it. -/
def Stage.run? (stage : Stage) (t : Text) : Option Stage := t.foldlM Stage.next? stage

theorem Stage.run?_append (stage : Stage) (s t : Text) :
    stage.run? (s ++ t) = (stage.run? s).bind (·.run? t) := List.foldlM_append

theorem Stage.run?_cons (stage : Stage) (c : Char) (t : Text) :
    stage.run? (c :: t) = (stage.next? c).bind (·.run? t) := rfl

theorem Stage.run?_stay {stage : Stage} {t : Text} (h : ∀ c ∈ t, stage.next? c = some stage) :
    stage.run? t = some stage := by
  induction t with
  | nil => rfl
  | cons c t ih =>
      rw [Stage.run?_cons, h c (by simp), Option.bind_some, ih fun d hd => h d (by simp [hd])]

theorem run_number {stage next : Stage} {t : Text} (h : stage.run? t = some next) (source : Text) :
    run (.number stage source) t = some ([], .number next (source ++ t)) := by
  induction t generalizing stage source with
  | nil =>
      obtain rfl : stage = next := by simpa [Stage.run?] using h
      simp [run]
  | cons c t ih =>
      rw [Stage.run?_cons, Option.bind_eq_some_iff] at h
      obtain ⟨middle, hmiddle, h⟩ := h
      rw [run_of_goOn? (show (Mode.number stage source).goOn? c = some _ by
        rw [Mode.goOn?, hmiddle]; rfl), ih h, List.append_assoc, List.singleton_append]

theorem isSoft_number {stage : Stage} (h : stage.isComplete = true) (source : Text) :
    (Mode.number stage source).isSoft = true := by
  cases stage <;> first | rfl | simp [Stage.isComplete] at h

/-- Decimal digits, at least one. -/
def IsDigits (t : Text) : Prop := t ≠ [] ∧ ∀ c ∈ t, c.isDigit = true

theorem isDigits_zero : IsDigits ['0'] := by
  refine ⟨List.cons_ne_nil _ _, fun c hc => ?_⟩
  rw [List.mem_singleton.mp hc]
  decide

/-- A decimal numeral: digits, perhaps a point and digits, and perhaps an exponent. -/
def IsNumeral (t : Text) : Prop :=
  ∃ whole fraction exponent, t = whole ++ fraction ++ exponent ∧ IsDigits whole
    ∧ (fraction = [] ∨ ∃ digits, fraction = '.' :: digits ∧ IsDigits digits)
    ∧ (exponent = [] ∨ ∃ sign digits, exponent = 'e' :: sign ++ digits
        ∧ (sign = [] ∨ sign = ['+'] ∨ sign = ['-']) ∧ IsDigits digits)

theorem IsDigits.isNumeral {t : Text} (h : IsDigits t) : IsNumeral t :=
  ⟨t, [], [], by simp, h, .inl rfl, .inl rfl⟩

theorem ne_of_isDigit {c : Char} (hc : c.isDigit = true) {d : Char} (hd : d.isDigit = false) :
    c ≠ d := by
  rintro rfl
  simp [hc] at hd

/-- How a digit goes on with a number. -/
theorem next?_isDigit {c : Char} (hc : c.isDigit = true) :
    Stage.whole.next? c = some .whole ∧ Stage.zero.next? c = some .whole
      ∧ Stage.point.next? c = some .fraction ∧ Stage.fraction.next? c = some .fraction
      ∧ Stage.exponentLetter.next? c = some .exponent
      ∧ Stage.exponentSign.next? c = some .exponent
      ∧ Stage.exponent.next? c = some .exponent := by
  simp [Stage.next?, hc, ne_of_isDigit hc]

/-- Digits are read as a whole number, of which a point or an exponent may follow. -/
theorem exists_run_digits {t : Text} (h : IsDigits t) :
    ∃ stage, (stage = .zero ∨ stage = .whole) ∧ ∃ c rest, t = c :: rest
      ∧ ∃ first, begin? c = some (.number first [c]) ∧ first.run? rest = some stage := by
  obtain ⟨hne, hall⟩ := h
  cases t with
  | nil => exact absurd rfl hne
  | cons c rest =>
      have hrest : Stage.whole.run? rest = some .whole :=
        Stage.run?_stay fun d hd => (next?_isDigit (hall d (by simp [hd]))).1
      have hspace : isSpace c = false ∧ c ≠ '\'' := by
        simp [isSpace, ne_of_isDigit (hall c (by simp))]
      by_cases hzero : c = '0'
      · have hbegin : begin? c = some (.number .zero [c]) := by
          rw [hzero]
          rfl
        cases rest with
        | nil => exact ⟨.zero, .inl rfl, c, [], rfl, .zero, hbegin, rfl⟩
        | cons d rest =>
            refine ⟨.whole, .inr rfl, c, d :: rest, rfl, .zero, hbegin, ?_⟩
            rw [Stage.run?_cons, (next?_isDigit (hall d (by simp))).2.1, Option.bind_some]
            exact Stage.run?_stay fun e he => (next?_isDigit (hall e (by simp [he]))).1
      · refine ⟨.whole, .inr rfl, c, rest, rfl, .whole, ?_, hrest⟩
        simp [begin?, hspace.1, hspace.2, hzero, hall c (by simp)]

/-- A point and digits after a whole number. -/
theorem exists_run_fraction {stage : Stage} (hstage : stage = .zero ∨ stage = .whole) {t : Text}
    (h : t = [] ∨ ∃ digits, t = '.' :: digits ∧ IsDigits digits) :
    ∃ next, stage.run? t = some next ∧ (next = .zero ∨ next = .whole ∨ next = .fraction) := by
  rcases h with rfl | ⟨digits, rfl, hne, hall⟩
  · exact ⟨stage, rfl, hstage.imp_right .inl⟩
  · obtain ⟨d, rest, rfl⟩ := List.exists_cons_of_ne_nil hne
    have hpoint : stage.next? '.' = some .point := by
      rcases hstage with rfl | rfl <;> rfl
    refine ⟨.fraction, ?_, .inr (.inr rfl)⟩
    rw [Stage.run?_cons, hpoint, Option.bind_some, Stage.run?_cons,
      (next?_isDigit (hall d (by simp))).2.2.1, Option.bind_some]
    exact Stage.run?_stay fun e he => (next?_isDigit (hall e (by simp [he]))).2.2.2.1

/-- An exponent after a whole number or a fraction. -/
theorem exists_run_exponent {stage : Stage}
    (hstage : stage = .zero ∨ stage = .whole ∨ stage = .fraction) {t : Text}
    (h : t = [] ∨ ∃ sign digits, t = 'e' :: sign ++ digits
      ∧ (sign = [] ∨ sign = ['+'] ∨ sign = ['-']) ∧ IsDigits digits) :
    ∃ next, stage.run? t = some next ∧ next.isComplete = true := by
  rcases h with rfl | ⟨sign, digits, rfl, hsign, hne, hall⟩
  · exact ⟨stage, rfl, by rcases hstage with rfl | rfl | rfl <;> rfl⟩
  · obtain ⟨d, rest, rfl⟩ := List.exists_cons_of_ne_nil hne
    have hletter : stage.next? 'e' = some .exponentLetter := by
      rcases hstage with rfl | rfl | rfl <;> rfl
    obtain ⟨-, -, -, -, hfirst, hsigned, -⟩ := next?_isDigit (hall d (by simp))
    have hrest : Stage.exponent.run? rest = some .exponent :=
      Stage.run?_stay fun e he => (next?_isDigit (hall e (by simp [he]))).2.2.2.2.2.2
    refine ⟨.exponent, ?_, rfl⟩
    rw [List.cons_append, Stage.run?_cons, hletter, Option.bind_some]
    have hafter : Stage.exponentSign.run? (d :: rest) = some .exponent := by
      rw [Stage.run?_cons, hsigned, Option.bind_some, hrest]
    rcases hsign with rfl | rfl | rfl
    · rw [List.nil_append, Stage.run?_cons, hfirst, Option.bind_some, hrest]
    all_goals exact hafter

theorem phrase_numeral {t : Text} (h : IsNumeral t) : Phrase t [.number t] := by
  obtain ⟨whole, fraction, exponent, rfl, hwhole, hfraction, hexponent⟩ := h
  obtain ⟨stage, hstage, c, rest, rfl, first, hbegin, hrest⟩ := exists_run_digits hwhole
  obtain ⟨stage, hstage', hstage⟩ := exists_run_fraction hstage hfraction
  obtain ⟨last, hlast, hcomplete⟩ := exists_run_exponent hstage hexponent
  have hrun : first.run? (rest ++ fraction ++ exponent) = some last := by
    simp [Stage.run?_append, hrest, hstage', hlast]
  have hread : run .between (c :: rest ++ fraction ++ exponent)
      = some ([], .number last (c :: rest ++ fraction ++ exponent)) := by
    simp only [List.cons_append]
    rw [run_of_begin? hbegin, run_number hrun]
    rfl
  exact phrase_of_run hread (isSoft_number hcomplete _) (by simp [Mode.tokens?, hcomplete])

theorem IsNumeral.exists_digit {t : Text} (h : IsNumeral t) :
    ∃ c rest, t = c :: rest ∧ c.isDigit = true := by
  obtain ⟨whole, fraction, exponent, rfl, ⟨hne, hall⟩, -⟩ := h
  obtain ⟨c, rest, rfl⟩ := List.exists_cons_of_ne_nil hne
  exact ⟨c, rest ++ fraction ++ exponent, by simp, hall c (by simp)⟩

theorem IsDigits.noBreak {t : Text} (h : IsDigits t) : ∀ c ∈ t, c ≠ '\n' ∧ c ≠ '\r' :=
  fun c hc => ⟨ne_of_isDigit (h.2 c hc) (by decide), ne_of_isDigit (h.2 c hc) (by decide)⟩

theorem IsNumeral.noBreak {t : Text} (h : IsNumeral t) : ∀ c ∈ t, c ≠ '\n' ∧ c ≠ '\r' := by
  obtain ⟨whole, fraction, exponent, rfl, hwhole, hfraction, hexponent⟩ := h
  have hfraction : ∀ c ∈ fraction, c ≠ '\n' ∧ c ≠ '\r' := by
    rcases hfraction with rfl | ⟨digits, rfl, hdigits⟩
    · simp
    · simpa using hdigits.noBreak
  have hexponent : ∀ c ∈ exponent, c ≠ '\n' ∧ c ≠ '\r' := by
    rcases hexponent with rfl | ⟨sign, digits, rfl, rfl | rfl | rfl, hdigits⟩
    · simp
    all_goals simpa using hdigits.noBreak
  simpa only [List.forall_mem_append] using ⟨⟨hwhole.noBreak, hfraction⟩, hexponent⟩

theorem phrase_minus {t : Text} (h : IsNumeral t) :
    Phrase ('-' :: t) [.mark ['-'], .number t] := by
  obtain ⟨c, rest, rfl, hc⟩ := h.exists_digit
  have hoperators : ∀ s ∈ operators, s.all (fun d => !d.isDigit) = true := by decide
  have hstop : (Mode.mark ['-']).goOn? c = none := by
    have hmem : ['-', c] ∉ operators := fun hm => by simpa [hc] using hoperators _ hm
    simp [Mode.goOn?, hmem]
  have hrun : run .between ['-'] = some ([], .mark ['-']) := rfl
  exact (phrase_numeral h).after hrun rfl ⟨c, rest, rfl, hstop, rfl⟩

/-- The source of a number in hexadecimal digits. -/
def hexText (digits : Text) : Text := '0' :: 'x' :: digits

theorem phrase_hex {digits : Text} (hne : digits ≠ []) (h : ∀ c ∈ digits, isHexDigit c = true) :
    Phrase (hexText digits) [.number (hexText digits)] := by
  obtain ⟨d, rest, rfl⟩ := List.exists_cons_of_ne_nil hne
  have hrun : Stage.zero.run? ('x' :: d :: rest) = some .hex := by
    rw [Stage.run?_cons, show Stage.zero.next? 'x' = some .hexLetter from rfl, Option.bind_some,
      Stage.run?_cons, Stage.next?, if_pos (h d (by simp)), Option.bind_some]
    exact Stage.run?_stay fun e he => by simp [Stage.next?, h e (by simp [he])]
  have hread : run .between (hexText (d :: rest))
      = some ([], .number .hex (hexText (d :: rest))) := by
    rw [hexText, run_of_begin? (show begin? '0' = some (.number .zero ['0']) from rfl),
      run_number hrun]
    rfl
  exact phrase_of_run hread (isSoft_number rfl _) rfl

/-! ## Numbers -/

end Dart.Lexer

namespace Decimal

open Dart.Lexer

theorem isDigits_digitsOf (n : Nat) : IsDigits (digitsOf n) :=
  ⟨Nat.toDigits_ne_nil, fun _ hc =>
    Nat.isDigit_of_mem_toDigits (b := 10) (by decide) (by decide) hc⟩

theorem exists_nonzero_digit {n : Nat} (hn : n ≠ 0) : ∃ c ∈ digitsOf n, c ≠ '0' := by
  induction n using Nat.strongRecOn with
  | ind n ih =>
      by_cases hsmall : n < 10
      · rw [digitsOf, Nat.toDigits_of_lt_base hsmall]
        have hdigits : ∀ d < 10, d ≠ 0 → Nat.digitChar d ≠ '0' := by decide
        exact ⟨_, List.mem_singleton_self _, hdigits n hsmall hn⟩
      · rw [digitsOf, Nat.toDigits_of_base_le (by decide) (by omega)]
        obtain ⟨c, hc, hne⟩ := ih (n / 10) (by omega) (by omega)
        exact ⟨c, List.mem_append_left _ hc, hne⟩

theorem isDigits_dropTrailingZeros {digits : Text} (h : IsDigits digits)
    (hne : ∃ c ∈ digits, c ≠ '0') : IsDigits (dropTrailingZeros digits) := by
  obtain ⟨c, hc, hzero⟩ := hne
  constructor
  · intro hnil
    have hsplit := List.takeWhile_append_dropWhile (p := (· == '0')) (l := digits.reverse)
    rw [List.reverse_eq_nil_iff.mp hnil, List.append_nil] at hsplit
    have hall := List.all_takeWhile (p := (· == '0')) (l := digits.reverse)
    rw [hsplit, List.all_eq_true] at hall
    exact hzero (beq_iff_eq.mp (hall c (List.mem_reverse.mpr hc)))
  · intro d hd
    have hmem := (List.dropWhile_sublist _).subset (List.mem_reverse.mp hd)
    exact h.2 d (List.mem_reverse.mp hmem)

/-- Nothing rounds to a finite double other than zero but what is on its side of zero. -/
theorem holds_zero {b : Binary} (hb : b.significand ≠ 0) (unit : Int) :
    ((Interval.ofBinary b).inUnits unit).holds 0 = false := by
  have hlow : 0 < ((Interval.ofBinary b).inUnits unit).low := by
    refine Nat.mul_pos (Nat.mul_pos ?_ (Nat.pow_pos (by decide))) (Nat.pow_pos (by decide))
    split <;> omega
  rw [Interval.holds]
  split
  · simp
    omega
  · simp

theorem isDigits_of_shortest? {tie : Tie} {b : Binary} {d : Numeral}
    (h : shortest? tie b = some d) : IsDigits d.digits := by
  rw [shortest?] at h
  split at h
  · simp at h
  · next hb =>
      obtain ⟨more, hmore⟩ := List.exists_of_findSome?_eq_some h
      obtain ⟨n, hn, rfl⟩ := Option.map_eq_some_iff.mp hmore.2
      refine isDigits_dropTrailingZeros (isDigits_digitsOf n) (exists_nonzero_digit ?_)
      rintro rfl
      have hholds := Interval.holds_of_onGrid? hn
      rw [holds_zero hb] at hholds
      simp at hholds

theorem isDigits_append {s t : Text} (hs : IsDigits s) (ht : ∀ c ∈ t, c.isDigit = true) :
    IsDigits (s ++ t) :=
  ⟨by simp [hs.1], fun c hc => (List.mem_append.mp hc).elim (hs.2 c) (ht c)⟩

theorem isDigit_replicate_zero {n : Nat} : ∀ c ∈ List.replicate n '0', c.isDigit = true := by
  intro c hc
  rw [(List.mem_replicate.mp hc).2]
  decide

theorem isNumeral_positional (s : Style) {d : Numeral} (h : IsDigits d.digits) :
    IsNumeral (s.positional d) := by
  rw [Style.positional]
  split
  · refine ⟨['0'], _, [], (List.append_nil _).symm, isDigits_zero,
      .inr ⟨_, rfl, ?_⟩, .inl rfl⟩
    exact ⟨by simp [h.1], fun c hc => (List.mem_append.mp hc).elim
      (isDigit_replicate_zero c) (h.2 c)⟩
  · have htake : IsDigits (d.digits.take (d.exponent.toNat + 1)) :=
      ⟨by simp [h.1], fun c hc => h.2 c (List.mem_of_mem_take hc)⟩
    have hdrop : ∀ c ∈ d.digits.drop (d.exponent.toNat + 1), c.isDigit = true :=
      fun c hc => h.2 c (List.mem_of_mem_drop hc)
    have hwhole := isDigits_append htake (isDigit_replicate_zero
      (n := d.exponent.toNat + 1 - (d.digits.take (d.exponent.toNat + 1)).length))
    simp only
    split
    · split
      · exact ⟨_, ['.', '0'], [], (List.append_nil _).symm, hwhole,
          .inr ⟨['0'], rfl, isDigits_zero⟩, .inl rfl⟩
      · exact hwhole.isNumeral
    · next hfraction =>
        exact ⟨_, _, [], (List.append_nil _).symm, hwhole,
          .inr ⟨_, rfl, by simpa using hfraction, hdrop⟩, .inl rfl⟩

theorem isNumeral_scientific (s : Style) {d : Numeral} (h : IsDigits d.digits) :
    IsNumeral (s.scientific d) := by
  have hexponent : ∃ sign digits, (if s.plusSign ∧ 0 ≤ d.exponent then ['+'] else [])
      ++ writeInt d.exponent = sign ++ digits
      ∧ (sign = [] ∨ sign = ['+'] ∨ sign = ['-']) ∧ IsDigits digits := by
    rw [writeInt]
    by_cases hneg : d.exponent < 0
    · rw [if_neg (by omega), if_pos hneg]
      exact ⟨['-'], _, rfl, .inr (.inr rfl), isDigits_digitsOf _⟩
    · rw [if_neg hneg]
      split
      · exact ⟨['+'], _, rfl, .inr (.inl rfl), isDigits_digitsOf _⟩
      · exact ⟨[], _, rfl, .inl rfl, isDigits_digitsOf _⟩
  obtain ⟨sign, digits, heq, hsign, hdigits⟩ := hexponent
  rw [Style.scientific]
  simp only [heq]
  obtain ⟨hne, hall⟩ := h
  split
  · contradiction
  · next c hc =>
      rw [hc] at hall
      exact ⟨[c], [], _, rfl, ⟨by simp, hall⟩, .inl rfl,
        .inr ⟨sign, digits, rfl, hsign, hdigits⟩⟩
  · next c more hmore hc =>
      rw [hc] at hall
      exact ⟨[c], '.' :: more, _, rfl, ⟨by simp, fun d hd => hall d (by simp_all)⟩,
        .inr ⟨more, rfl, by simpa using hmore, fun d hd => hall d (by simp [hd])⟩,
        .inr ⟨sign, digits, rfl, hsign, hdigits⟩⟩

theorem isNumeral_magnitude (s : Style) {d : Numeral} (h : IsDigits d.digits) :
    IsNumeral (s.magnitude d) := by
  rw [Style.magnitude]
  split
  · exact isNumeral_positional s h
  · exact isNumeral_scientific s h

end Decimal

namespace Dart.Lexer

/-- The literal of a finite number is a numeral, perhaps after a minus sign. -/
theorem exists_numeral {x : Float} (h : Decimal.isFinite x = true) :
    ∃ t, IsNumeral t ∧ (Literal.number x = t ∨ Literal.number x = '-' :: t) := by
  obtain ⟨b, hb⟩ := Option.isSome_iff_exists.mp h
  rw [Literal.number, Decimal.Style.write, hb]
  cases hd : Decimal.shortest? Literal.numberStyle.tie b with
  | none =>
      refine ⟨['0'], isDigits_zero.isNumeral, .inl ?_⟩
      cases hb : b.negative <;> simp [hd, hb] <;> rfl
  | some d =>
      refine ⟨Literal.numberStyle.magnitude d,
        Decimal.isNumeral_magnitude _ (Decimal.isDigits_of_shortest? hd), ?_⟩
      simp only [hd]
      cases b.negative
      · exact .inl rfl
      · exact .inr rfl

/-- The literal of what is no finite number. -/
theorem number_of_not_isFinite {x : Float} (h : Decimal.isFinite x = false) :
    ∃ s ∈ ["NaN", "-inf", "inf"], Literal.number x = s.toList := by
  have hnone : Decimal.Binary.ofFloat? x = none := by
    simpa [Decimal.isFinite] using h
  rw [Literal.number, Decimal.Style.write, hnone]
  simp only
  split
  · exact ⟨_, by simp, rfl⟩
  · split
    · exact ⟨_, by simp, rfl⟩
    · exact ⟨_, by simp, rfl⟩

/-- The literal of a number is always read alike, also where it is no finite number. -/
theorem phrase_number (x : Float) : Phrase (Literal.number x) (lexed (Literal.number x)) := by
  cases h : Decimal.isFinite x with
  | true =>
      obtain ⟨t, ht, heq | heq⟩ := exists_numeral h
      · rw [heq, (phrase_numeral ht).lexed]
        exact phrase_numeral ht
      · rw [heq, (phrase_minus ht).lexed]
        exact phrase_minus ht
  | false =>
      have hwords : ∀ s ∈ ["NaN", "-inf", "inf"], isPhrase s.toList = true := by decide
      obtain ⟨s, hs, heq⟩ := number_of_not_isFinite h
      exact heq ▸ phrase_lexed (hwords s hs)

/-- The literal of a number stands on one line. -/
theorem noBreak_number (x : Float) : ∀ c ∈ Literal.number x, c ≠ '\n' ∧ c ≠ '\r' := by
  cases h : Decimal.isFinite x with
  | true =>
      obtain ⟨t, ht, heq | heq⟩ := exists_numeral h
      · exact heq ▸ ht.noBreak
      · rw [heq]
        simpa using ht.noBreak
  | false =>
      have hwords : ∀ s ∈ ["NaN", "-inf", "inf"],
          s.toList.all (fun c => c ≠ '\n' ∧ c ≠ '\r') = true := by decide
      obtain ⟨s, hs, heq⟩ := number_of_not_isFinite h
      exact heq ▸ Text.forall_of_all (hwords s hs)

end Dart.Lexer

end CanvasFlutter
