import CanvasFlutter.Decimal.Style
import CanvasFlutter.Proofs.Decimal.Exact

namespace CanvasFlutter.Decimal

/-!
# `CanvasFlutter.Proofs.Decimal.Digits` — the shortest digits of whole numbers

The search for the fewest digits always ends, since a grid of seventeen digits is finer than the
doubles. For a whole number below `10 ^ 15` every grid that yields anything yields the number itself,
so its shortest digits are its own; from there on the first digit stands at an exponent of at least 15.

## Contents
- **Digits.** `digitsOf_mul_pow`, `dropTrailingZeros_append`; `ofUnits_eq` says that the digits do not
  depend on the unit, and `positional_ofUnits` writes them out.
- **Grids.** `Interval.Steps` measures an interval; `Interval.Steps.isSome_onGrid?`.
- **Search.** `searchUnit`; `isSome_shortest?`, `le_exponent_of_shortest?`.
- **Whole numbers.** `shortest?_of_small`, `le_exponent_of_large`.
-/

/-! ## Digits -/

theorem digitsOf_mul_ten {n : Nat} (h : 0 < n) : digitsOf (n * 10) = digitsOf n ++ ['0'] := by
  rw [digitsOf, Nat.toDigits_of_base_le (by decide) (by omega)]
  have hfront : n * 10 / 10 = n := Nat.mul_div_cancel n (by decide)
  have hlast : n * 10 % 10 = 0 := Nat.mul_mod_left ..
  rw [hfront, hlast]
  rfl

theorem digitsOf_mul_pow {n : Nat} (h : 0 < n) (zeros : Nat) :
    digitsOf (n * 10 ^ zeros) = digitsOf n ++ List.replicate zeros '0' := by
  induction zeros with
  | zero => simp
  | succ zeros ih =>
      have hpos : 0 < n * 10 ^ zeros := Nat.mul_pos h (Nat.pow_pos (by decide))
      rw [Nat.pow_succ, ← Nat.mul_assoc, digitsOf_mul_ten hpos, ih, List.append_assoc,
        List.replicate_succ']

theorem dropTrailingZeros_append (digits : Text) (zeros : Nat) :
    dropTrailingZeros (digits ++ List.replicate zeros '0') = dropTrailingZeros digits := by
  rw [dropTrailingZeros, List.reverse_append, List.reverse_replicate]
  induction zeros with
  | zero => rfl
  | succ zeros ih => simpa [List.replicate_succ] using ih

/-- The zeros that were dropped can be put back. -/
theorem dropTrailingZeros_append_replicate (digits : Text) :
    (dropTrailingZeros digits).length ≤ digits.length
      ∧ dropTrailingZeros digits
        ++ List.replicate (digits.length - (dropTrailingZeros digits).length) '0' = digits := by
  obtain ⟨zeros, hzeros⟩ : ∃ zeros, zeros = digits.reverse.takeWhile (· == '0') := ⟨_, rfl⟩
  have hsplit : dropTrailingZeros digits ++ zeros.reverse = digits := by
    rw [dropTrailingZeros, hzeros, ← List.reverse_append, List.takeWhile_append_dropWhile,
      List.reverse_reverse]
  have hall : zeros.reverse = List.replicate zeros.reverse.length '0' := by
    refine List.eq_replicate_iff.mpr ⟨rfl, fun c hc => ?_⟩
    have htake := List.all_takeWhile (p := (· == '0')) (l := digits.reverse)
    rw [← hzeros, List.all_eq_true] at htake
    exact beq_iff_eq.mp (htake c (List.mem_reverse.mp hc))
  have hlength := congrArg List.length hsplit
  rw [List.length_append] at hlength
  refine ⟨by omega, ?_⟩
  rw [show digits.length - (dropTrailingZeros digits).length = zeros.reverse.length by omega, ← hall,
    hsplit]

/-- A number of units and the whole number that it comes to. -/
def IsUnitsOf (whole n : Nat) (unit : Int) : Prop :=
  n * 10 ^ unit.toNat = whole * 10 ^ (-unit).toNat

/-- **The digits do not depend on the unit that a whole number is counted in.** -/
theorem ofUnits_eq {whole n : Nat} {unit : Int} (h : IsUnitsOf whole n unit) (hpos : 0 < whole) :
    Numeral.ofUnits n unit = Numeral.ofUnits whole 0 := by
  have hn : 0 < n := by
    apply Nat.pos_of_ne_zero
    rintro rfl
    have hproduct : 0 < whole * 10 ^ (-unit).toNat := Nat.mul_pos hpos (Nat.pow_pos (by decide))
    rw [← h, Nat.zero_mul] at hproduct
    exact Nat.lt_irrefl 0 hproduct
  have hdigits := congrArg digitsOf h
  rw [digitsOf_mul_pow hn, digitsOf_mul_pow hpos] at hdigits
  have hshort := congrArg dropTrailingZeros hdigits
  rw [dropTrailingZeros_append, dropTrailingZeros_append] at hshort
  have hlength := congrArg List.length hdigits
  simp only [List.length_append, List.length_replicate] at hlength
  have hnDigits : 0 < (digitsOf n).length := Nat.length_toDigits_pos
  have hwholeDigits : 0 < (digitsOf whole).length := Nat.length_toDigits_pos
  simp only [Numeral.ofUnits, hshort, Numeral.mk.injEq, true_and]
  omega

/-- A whole number is written with its own digits. -/
theorem positional_ofUnits {s : Style} (hs : s.wholeFraction = false) (whole : Nat) :
    s.positional (Numeral.ofUnits whole 0) = digitsOf whole := by
  obtain ⟨hle, hzeros⟩ := dropTrailingZeros_append_replicate (digitsOf whole)
  have hdigits : 0 < (digitsOf whole).length := Nat.length_toDigits_pos
  have hsign : ¬ (Numeral.ofUnits whole 0).exponent < 0 := by
    simp only [Numeral.ofUnits]
    omega
  have hlength : (Numeral.ofUnits whole 0).exponent.toNat + 1 = (digitsOf whole).length := by
    simp only [Numeral.ofUnits]
    omega
  rw [Style.positional, if_neg hsign]
  simp only [hlength]
  have hall : (Numeral.ofUnits whole 0).digits.take (digitsOf whole).length
      = dropTrailingZeros (digitsOf whole) := List.take_of_length_le hle
  have hnone : (Numeral.ofUnits whole 0).digits.drop (digitsOf whole).length = [] :=
    List.drop_of_length_le hle
  rw [hall, hnone, hs, hzeros]
  rfl

/-! ## Grids -/

namespace Interval

variable {i : Interval} {tie : Tie} {n : Nat}

theorem holds_of_lt (hlow : i.low < n * i.denominator) (hhigh : n * i.denominator < i.high) :
    i.holds n = true := by
  rw [holds]
  split <;> simp <;> omega

theorem bounds_of_holds (h : i.holds n = true) :
    i.low ≤ n * i.denominator ∧ n * i.denominator ≤ i.high := by
  rw [holds] at h
  split at h <;> simp at h <;> omega

/-- What a grid yields is one of the two points next to the value. -/
theorem onGrid?_cases (h : i.onGrid? tie = some n) :
    n = i.value / i.denominator ∨ n = i.value / i.denominator + 1 := by
  simp only [onGrid?] at h
  split at h
  · exact .inl (Option.some.inj h).symm
  · exact .inr (Option.some.inj h).symm
  · simp at h
  · split at h
    · exact .inl (Option.some.inj h).symm
    · split at h
      · exact .inr (Option.some.inj h).symm
      · split at h
        · exact .inl (Option.some.inj h).symm
        · exact .inr (Option.some.inj h).symm

theorem isSome_onGrid? (h : i.holds (i.value / i.denominator) = true
    ∨ i.holds (i.value / i.denominator + 1) = true) : (i.onGrid? tie).isSome = true := by
  simp only [onGrid?]
  split
  · rfl
  · rfl
  · simp_all
  · split
    · rfl
    · split
      · rfl
      · split <;> rfl

/-- A value on the grid is what the grid yields. -/
theorem onGrid?_exact (hvalue : i.value = n * i.denominator) (hpos : 0 < i.denominator)
    (hholds : i.holds n = true) : i.onGrid? tie = some n := by
  have hbelow : i.value / i.denominator = n := by
    rw [hvalue]
    exact Nat.mul_div_cancel n hpos
  have hnearer : 2 * i.value < (2 * n + 1) * i.denominator := by
    rw [hvalue, Nat.add_mul, Nat.mul_assoc]
    omega
  simp only [onGrid?, hbelow, hholds, hnearer, if_true]
  split <;> simp_all

/-- How far the bounds of an interval are from its value, counted in steps of which two are half the
distance between two doubles. -/
structure Steps (i : Interval) (significand step : Nat) : Prop where
  pos : 0 < step
  denominator : 0 < i.denominator
  value : i.value = 4 * (significand * step)
  high : i.high = i.value + 2 * step
  below : i.low + step ≤ i.value
  low : i.value ≤ i.low + 2 * step
  /-- Only below a power of two are the doubles closer. -/
  even : significand ≠ 2 ^ 52 → i.low + 2 * step = i.value

variable {significand step : Nat}

/-- The step of an interval in a unit. -/
def stepIn (b : Binary) (unit : Int) : Nat := 2 ^ (b.exponent - 2).toNat * 10 ^ (-unit).toNat

theorem steps_inUnits {b : Binary} (hb : 0 < b.significand) (unit : Int) :
    Steps ((ofBinary b).inUnits unit) b.significand (stepIn b unit) := by
  obtain ⟨scale, hscale⟩ : ∃ scale, scale = 2 ^ (b.exponent - 2).toNat := ⟨_, rfl⟩
  obtain ⟨up, hup⟩ : ∃ up, up = 10 ^ (-unit).toNat := ⟨_, rfl⟩
  have hpos : 0 < scale * up := by
    rw [hscale, hup]
    exact Nat.mul_pos (Nat.two_pow_pos _) (Nat.pow_pos (by decide))
  have hlarge : scale * up ≤ b.significand * (scale * up) := Nat.le_mul_of_pos_left _ hb
  have hvalue : ((ofBinary b).inUnits unit).value = 4 * (b.significand * (scale * up)) := by
    rw [hscale, hup]
    simp only [inUnits, ofBinary, Nat.mul_assoc]
    rfl
  have hhigh : ((ofBinary b).inUnits unit).high
      = 4 * (b.significand * (scale * up)) + 2 * (scale * up) := by
    rw [hscale, hup, ← Nat.mul_assoc 4, ← Nat.add_mul, ← Nat.mul_assoc]
    rfl
  have hlow : ((ofBinary b).inUnits unit).low + scale * up = 4 * (b.significand * (scale * up))
        ∧ b.significand = 2 ^ 52
      ∨ ((ofBinary b).inUnits unit).low + 2 * (scale * up) = 4 * (b.significand * (scale * up)) := by
    have hdown : ∀ away ≤ 4 * b.significand,
        (4 * b.significand - away) * scale * up + away * (scale * up)
          = 4 * (b.significand * (scale * up)) := by
      intro away haway
      rw [Nat.mul_assoc, ← Nat.add_mul, Nat.sub_add_cancel haway, Nat.mul_assoc]
    by_cases hpower : b.significand = hiddenBit ∧ b.exponent ≠ -1074
    · have hlow : ((ofBinary b).inUnits unit).low = (4 * b.significand - 1) * scale * up := by
        simp only [inUnits, ofBinary, if_pos hpower, hscale, hup]
        rfl
      refine .inl ⟨?_, hpower.1⟩
      rw [hlow, ← hdown 1 (by omega), Nat.one_mul]
    · have hlow : ((ofBinary b).inUnits unit).low = (4 * b.significand - 2) * scale * up := by
        simp only [inUnits, ofBinary, if_neg hpower, hscale, hup]
        rfl
      refine .inr ?_
      rw [hlow, hdown 2 (by omega)]
  have hstep : stepIn b unit = scale * up := by rw [hscale, hup, stepIn]
  rw [hstep]
  refine ⟨hpos, ?_, hvalue, ?_, ?_, ?_, ?_⟩
  · exact Nat.mul_pos (Nat.two_pow_pos _) (Nat.pow_pos (by decide))
  all_goals omega

/-- **A grid of seventeen digits is finer than the doubles**: one of the two points next to the value
rounds to it. -/
theorem Steps.isSome_onGrid? (h : Steps i significand step) (hbits : significand < 2 ^ 53)
    (hfine : i.denominator * 10 ^ 16 ≤ i.value) : (i.onGrid? tie).isSome = true := by
  obtain ⟨hpos, hdenominator, hvalue, hhigh, hbelow, hlow, heven⟩ := h
  obtain ⟨below, hdef⟩ : ∃ below, below = i.value / i.denominator := ⟨_, rfl⟩
  obtain ⟨first, hfirst⟩ : ∃ first, first = below * i.denominator := ⟨_, rfl⟩
  have hsecond : (below + 1) * i.denominator = first + i.denominator := by
    rw [Nat.succ_mul, hfirst]
  have hsum := Nat.div_add_mod' i.value i.denominator
  have hrest := Nat.mod_lt i.value hdenominator
  rw [← hdef, ← hfirst] at hsum
  -- a unit is less than four steps, and less than two of them at a power of two
  have hunit : significand * step ≤ (2 ^ 53 - 1) * step := Nat.mul_le_mul_right _ (by omega)
  apply Interval.isSome_onGrid?
  rw [← hdef]
  by_cases hpower : significand = 2 ^ 52
  · rw [hpower] at hvalue
    refine .inr (holds_of_lt ?_ ?_) <;> rw [hsecond] <;> omega
  · have hexact := heven hpower
    by_cases hnear : i.value < first + 2 * step
    · refine .inl (holds_of_lt ?_ ?_) <;> rw [← hfirst] <;> omega
    · refine .inr (holds_of_lt ?_ ?_) <;> rw [hsecond] <;> omega

end Interval

/-! ## Search -/

theorem lt_pow_length (n : Nat) : n < 10 ^ (digitsOf n).length :=
  (Nat.length_toDigits_le_iff (by decide) Nat.length_toDigits_pos).mp (Nat.le_refl _)

theorem lt_length_digitsOf {n power : Nat} (h : 10 ^ power ≤ n) : power < (digitsOf n).length := by
  have hlt := Nat.lt_of_le_of_lt h (lt_pow_length n)
  exact (Nat.pow_lt_pow_iff_right (by decide)).mp hlt

theorem pow_length_le {n : Nat} (h : 0 < n) : 10 ^ ((digitsOf n).length - 1) ≤ n := by
  by_cases hlength : 0 < (digitsOf n).length - 1
  · have hnot := mt (Nat.length_toDigits_le_iff (b := 10) (n := n) (by decide) hlength).mpr
    show 10 ^ ((digitsOf n).length - 1) ≤ n
    simp only [digitsOf] at *
    omega
  · have hone : (digitsOf n).length - 1 = 0 := by omega
    rw [hone]
    exact h

/-- The power of ten that the search starts from is not above the number. -/
theorem decimalExponent_le {numerator denominator : Nat} (hn : 0 < numerator)
    (hd : 0 < denominator) :
    denominator * 10 ^ (decimalExponent numerator denominator).toNat
      ≤ numerator * 10 ^ (-decimalExponent numerator denominator).toNat := by
  unfold decimalExponent
  split
  · next hle =>
      obtain ⟨whole, hwhole⟩ : ∃ whole, whole = numerator / denominator := ⟨_, rfl⟩
      have hpower := pow_length_le (hwhole ▸ Nat.div_pos hle hd)
      have hnone : (-(((digitsOf whole).length - 1 : Nat) : Int)).toNat = 0 := by omega
      rw [← hwhole, Int.toNat_natCast, hnone, Nat.pow_zero, Nat.mul_one]
      calc denominator * 10 ^ ((digitsOf whole).length - 1)
          ≤ denominator * whole := Nat.mul_le_mul_left _ hpower
        _ ≤ numerator := hwhole ▸ Nat.mul_div_le ..
  · obtain ⟨times, htimes⟩ : ∃ times, times = (denominator + numerator - 1) / numerator := ⟨_, rfl⟩
    have hpower := lt_pow_length (times - 1)
    have hcover : denominator ≤ numerator * times := by
      have hsum := Nat.div_add_mod (denominator + numerator - 1) numerator
      have hrest := Nat.mod_lt (denominator + numerator - 1) hn
      rw [← htimes] at hsum
      omega
    have hnone : (-((digitsOf (times - 1)).length : Int)).toNat = 0 := by omega
    rw [← htimes, hnone, Int.neg_neg, Int.toNat_natCast, Nat.pow_zero, Nat.mul_one]
    exact Nat.le_trans hcover (Nat.mul_le_mul_left _ (by omega))

/-- The unit of the search that has some more digits than one. -/
def searchUnit (b : Binary) (more : Nat) : Int :=
  decimalExponent (Interval.ofBinary b).value (Interval.ofBinary b).denominator - more

theorem pow_mul_le {numerator denominator : Nat} {leading : Int}
    (h : denominator * 10 ^ leading.toNat ≤ numerator * 10 ^ (-leading).toNat) (more : Nat) :
    denominator * 10 ^ (leading - more).toNat * 10 ^ more
      ≤ numerator * 10 ^ (-(leading - more)).toNat := by
  obtain ⟨extra, hdown, hup⟩ : ∃ extra, (leading - more).toNat + more = leading.toNat + extra
      ∧ (-(leading - more)).toNat = (-leading).toNat + extra :=
    ⟨(-(leading - more)).toNat - (-leading).toNat, by omega, by omega⟩
  rw [Nat.mul_assoc, ← Nat.pow_add, hdown, hup, Nat.pow_add, Nat.pow_add, ← Nat.mul_assoc,
    ← Nat.mul_assoc]
  exact Nat.mul_le_mul_right _ h

variable {b : Binary} {tie : Tie} {d : Numeral}

/-- In a unit of the search a number has one digit and so many more. -/
theorem denominator_le_value (hb : 0 < b.significand) (more : Nat) :
    ((Interval.ofBinary b).inUnits (searchUnit b more)).denominator * 10 ^ more
      ≤ ((Interval.ofBinary b).inUnits (searchUnit b more)).value := by
  have hvalue : 0 < (Interval.ofBinary b).value :=
    Nat.mul_pos (Nat.mul_pos (by decide) hb) (Nat.two_pow_pos _)
  have hdenominator : 0 < (Interval.ofBinary b).denominator := Nat.two_pow_pos _
  exact pow_mul_le (decimalExponent_le hvalue hdenominator) more

theorem shortest?_eq (hb : 0 < b.significand) (tie : Tie) :
    shortest? tie b = (List.range 17).findSome? fun (more : Nat) =>
      (((Interval.ofBinary b).inUnits (searchUnit b more)).onGrid? tie).map
        (Numeral.ofUnits · (searchUnit b more)) := by
  rw [shortest?, if_neg (by omega)]
  rfl

/-- **The search ends**: seventeen digits are always enough. -/
theorem isSome_shortest? (hb : 0 < b.significand) (hbits : b.significand < 2 ^ 53) (tie : Tie) :
    (shortest? tie b).isSome = true := by
  have hlast : (((Interval.ofBinary b).inUnits (searchUnit b 16)).onGrid? tie).isSome = true :=
    (Interval.steps_inUnits hb (searchUnit b 16)).isSome_onGrid? hbits (denominator_le_value hb 16)
  rw [shortest?_eq hb, List.findSome?_isSome_iff]
  exact ⟨16, List.mem_range.mpr (by decide), by simpa using hlast⟩

/-- What the search finds is what one of its grids yields. -/
theorem exists_onGrid?_of_shortest? (h : shortest? tie b = some d) :
    0 < b.significand ∧ ∃ more n, ((Interval.ofBinary b).inUnits (searchUnit b more)).onGrid? tie = some n
      ∧ d = Numeral.ofUnits n (searchUnit b more) := by
  have hb : 0 < b.significand := by
    apply Nat.pos_of_ne_zero
    intro hzero
    rw [shortest?, if_pos hzero] at h
    simp at h
  rw [shortest?_eq hb] at h
  obtain ⟨more, -, hmore⟩ := List.exists_of_findSome?_eq_some h
  obtain ⟨n, hn, rfl⟩ := Option.map_eq_some_iff.mp hmore
  exact ⟨hb, more, n, hn, rfl⟩

/-- The first digit does not get lost in the search. -/
theorem le_exponent_of_shortest? (h : shortest? tie b = some d) :
    searchUnit b 0 ≤ d.exponent := by
  obtain ⟨hb, more, n, hn, rfl⟩ := exists_onGrid?_of_shortest? h
  have hdenominator := (Interval.steps_inUnits hb (searchUnit b more)).denominator
  have hbelow := (Nat.le_div_iff_mul_le hdenominator).mpr
    (Nat.mul_comm _ _ ▸ denominator_le_value hb more)
  have hpower : 10 ^ more ≤ n := by
    rcases Interval.onGrid?_cases hn with heq | heq
    · exact heq ▸ hbelow
    · exact heq ▸ Nat.le_succ_of_le hbelow
  have hlength := lt_length_digitsOf hpower
  simp only [Numeral.ofUnits, searchUnit] at *
  omega

/-! ## Whole numbers -/

variable {whole : Nat}

theorem value_of_whole (h : IsWholeOf whole b.significand b.exponent) :
    (Interval.ofBinary b).value = whole * (Interval.ofBinary b).denominator := by
  have hshifted := h.shifted (2 - b.exponent).toNat (by omega)
  show 4 * b.significand * 2 ^ (b.exponent - 2).toNat = whole * 2 ^ (2 - b.exponent).toNat
  have hpower : (b.exponent + (2 - b.exponent).toNat).toNat = 2 + (b.exponent - 2).toNat := by omega
  rw [hshifted, hpower, Nat.pow_add, ← Nat.mul_assoc, Nat.mul_comm 4]

theorem searchUnit_of_whole (h : IsWholeOf whole b.significand b.exponent) (hpos : 0 < whole) :
    searchUnit b 0 = (((digitsOf whole).length - 1 : Nat) : Int) := by
  have hdenominator : 0 < (Interval.ofBinary b).denominator := Nat.two_pow_pos _
  have hle : (Interval.ofBinary b).denominator ≤ (Interval.ofBinary b).value := by
    rw [value_of_whole h]
    exact Nat.le_mul_of_pos_left _ hpos
  have hdiv : (Interval.ofBinary b).value / (Interval.ofBinary b).denominator = whole := by
    rw [value_of_whole h]
    exact Nat.mul_div_cancel _ hdenominator
  rw [searchUnit, decimalExponent, if_pos hle, hdiv]
  exact Int.sub_zero _

/-- From `10 ^ 15` on the first digit of a whole number stands at an exponent of at least 15. -/
theorem le_exponent_of_large (h : IsWholeOf whole b.significand b.exponent)
    (hlarge : 10 ^ 15 ≤ whole) (hd : shortest? tie b = some d) : 15 ≤ d.exponent := by
  have hlength := lt_length_digitsOf hlarge
  have hfirst := le_exponent_of_shortest? hd
  rw [searchUnit_of_whole h (by omega)] at hfirst
  omega

/-- Doubles that are less than `10 ^ 15` lie close together. -/
theorem exponent_le_of_small (h : IsWholeOf whole b.significand b.exponent)
    (hhidden : 2 ^ 52 ≤ b.significand) (hsmall : whole < 10 ^ 15) : b.exponent ≤ -3 := by
  rw [IsWholeOf] at h
  by_cases hsign : 0 ≤ b.exponent
  · have hnone : (-b.exponent).toNat = 0 := by omega
    have hgrow : b.significand ≤ b.significand * 2 ^ b.exponent.toNat :=
      Nat.le_mul_of_pos_right _ (Nat.two_pow_pos _)
    rw [h, hnone, Nat.pow_zero, Nat.mul_one] at hgrow
    omega
  · have hnone : b.exponent.toNat = 0 := by omega
    rw [hnone, Nat.pow_zero, Nat.mul_one] at h
    apply Int.not_lt.mp
    intro hclose
    have hpower : 2 ^ (-b.exponent).toNat ≤ 2 ^ 2 := Nat.pow_le_pow_right (by decide) (by omega)
    have hbound : whole * 2 ^ (-b.exponent).toNat ≤ whole * 2 ^ 2 := Nat.mul_le_mul_left _ hpower
    omega

/-- Multiples that are less than one step apart are the same. -/
theorem eq_of_mul_close {m k step : Nat} (hlow : k * step < m * step + step)
    (hhigh : m * step < k * step + step) : m = k := by
  rw [← Nat.succ_mul] at hlow hhigh
  have hle := Nat.lt_of_mul_lt_mul_right hlow
  have hge := Nat.lt_of_mul_lt_mul_right hhigh
  omega

/-- The interval of a small whole number is narrower than the distance between whole numbers, so it
holds no other one. -/
theorem isUnitsOf_of_holds (h : IsWholeOf whole b.significand b.exponent) (hb : 0 < b.significand)
    (hexponent : b.exponent ≤ -3) {unit : Int} (hunit : 0 ≤ unit) {n : Nat}
    (hn : ((Interval.ofBinary b).inUnits unit).holds n = true) : IsUnitsOf whole n unit := by
  obtain ⟨denominator, hdenominator⟩ : ∃ denominator, denominator = (Interval.ofBinary b).denominator :=
    ⟨_, rfl⟩
  have hscale : (b.exponent - 2).toNat = 0 := by omega
  have hup : (-unit).toNat = 0 := by omega
  have hwide : 2 ^ 5 ≤ denominator := by
    rw [hdenominator]
    exact Nat.pow_le_pow_right (by decide) (by omega)
  have hvalue : ((Interval.ofBinary b).inUnits unit).value = whole * denominator := by
    show (Interval.ofBinary b).value * 10 ^ (-unit).toNat = whole * denominator
    rw [hup, Nat.pow_zero, Nat.mul_one, value_of_whole h, hdenominator]
  have hpoint : n * ((Interval.ofBinary b).inUnits unit).denominator
      = n * 10 ^ unit.toNat * denominator := by
    show n * ((Interval.ofBinary b).denominator * 10 ^ unit.toNat) = _
    rw [← hdenominator, Nat.mul_comm denominator, Nat.mul_assoc]
  have hsteps := Interval.steps_inUnits hb unit
  have hlow := hsteps.low
  have hhigh := hsteps.high
  rw [Interval.stepIn, hscale, hup, hvalue] at hlow hhigh
  have hbounds := Interval.bounds_of_holds hn
  rw [hpoint] at hbounds
  rw [IsUnitsOf, hup, Nat.pow_zero, Nat.mul_one]
  have hafter : whole * denominator < n * 10 ^ unit.toNat * denominator + denominator := by omega
  have hbefore : n * 10 ^ unit.toNat * denominator < whole * denominator + denominator := by omega
  exact eq_of_mul_close hafter hbefore

/-- In a unit that is less than one, a whole number is a point of the grid and so is what it yields. -/
theorem onGrid?_of_whole (h : IsWholeOf whole b.significand b.exponent) (hb : 0 < b.significand)
    {unit : Int} (hunit : unit < 0) :
    ((Interval.ofBinary b).inUnits unit).onGrid? tie = some (whole * 10 ^ (-unit).toNat) := by
  have hdown : unit.toNat = 0 := by omega
  have hpoint : ((Interval.ofBinary b).inUnits unit).value
      = whole * 10 ^ (-unit).toNat * ((Interval.ofBinary b).inUnits unit).denominator := by
    show (Interval.ofBinary b).value * 10 ^ (-unit).toNat
      = whole * 10 ^ (-unit).toNat * ((Interval.ofBinary b).denominator * 10 ^ unit.toNat)
    rw [value_of_whole h, hdown, Nat.pow_zero, Nat.mul_one, Nat.mul_right_comm]
  have hsteps := Interval.steps_inUnits hb unit
  have hpos := hsteps.pos
  have hbelow := hsteps.below
  have hhigh := hsteps.high
  refine Interval.onGrid?_exact hpoint hsteps.denominator (Interval.holds_of_lt ?_ ?_)
  · rw [← hpoint]
    omega
  · rw [← hpoint]
    omega

/-- Whatever the unit, a small whole number is all that a grid yields. -/
theorem isUnitsOf_of_onGrid? (h : IsWholeOf whole b.significand b.exponent)
    (hhidden : 2 ^ 52 ≤ b.significand) (hsmall : whole < 10 ^ 15) {unit : Int} {n : Nat}
    (hn : ((Interval.ofBinary b).inUnits unit).onGrid? tie = some n) : IsUnitsOf whole n unit := by
  have hb : 0 < b.significand := Nat.lt_of_lt_of_le (by decide) hhidden
  by_cases hunit : 0 ≤ unit
  · have hexponent := exponent_le_of_small h hhidden hsmall
    exact isUnitsOf_of_holds h hb hexponent hunit (Interval.holds_of_onGrid? hn)
  · have hdown : unit.toNat = 0 := by omega
    rw [onGrid?_of_whole h hb (Int.not_le.mp hunit)] at hn
    rw [IsUnitsOf, hdown, Nat.pow_zero, Nat.mul_one]
    exact (Option.some.inj hn).symm

/-- **A whole number below `10 ^ 15` keeps its own digits.** -/
theorem shortest?_of_small (h : IsWholeOf whole b.significand b.exponent) (hpos : 0 < whole)
    (hhidden : 2 ^ 52 ≤ b.significand) (hbits : b.significand < 2 ^ 53) (hsmall : whole < 10 ^ 15) :
    shortest? tie b = some (Numeral.ofUnits whole 0) := by
  have hb : 0 < b.significand := Nat.lt_of_lt_of_le (by decide) hhidden
  obtain ⟨d, hd⟩ := Option.isSome_iff_exists.mp (isSome_shortest? hb hbits tie)
  obtain ⟨-, more, n, hn, rfl⟩ := exists_onGrid?_of_shortest? hd
  rw [hd, ofUnits_eq (isUnitsOf_of_onGrid? h hhidden hsmall hn) hpos]

end CanvasFlutter.Decimal
