import CanvasFlutter.Proofs.Decimal.Finite

namespace CanvasFlutter.Decimal

/-!
# `CanvasFlutter.Proofs.Decimal.Exact` — whole numbers that are doubles

The whole part of a double is a double again, so taking it loses nothing but the fraction. Both are
seen through the logical model of the core library: a number that has 53 bits or can be brought to
them comes back unchanged from rounding, from packing and from a multiplication by one.

## Contents
- **Unpacking.** `Binary.ofUnpacked?` is what the parts of a double are in the model
  (`ofFloat?_eq`); `unpack_packed`.
- **Rounding.** `IsNormal`, `round_exact`.
- **Whole numbers.** `IsWholeOf`; `ofFloat?_ofWhole`, `ofFloat?_wholePart`.
- **Order.** `one_le_iff`.
-/

open Float.Model Float.Model.UnpackedFloat

/-! ## Unpacking -/

/-- Whether a sign is that of the numbers below zero. -/
def isNegative : Sign → Bool
  | .negative => true
  | .positive => false

/-- The parts of an unpacked number that is finite. -/
def Binary.ofUnpacked? : UnpackedFloat → Option Binary
  | .zero sign => some ⟨isNegative sign, 0, -1074⟩
  | .finite sign significand exponent _ => some ⟨isNegative sign, significand, exponent⟩
  | _ => none

theorem toNat_unpackMantissa (x : Float) :
    (@unpackMantissa .binary64 x.toBits.toBitVec).toNat = x.toBits.toNat % hiddenBit := by
  simp [unpackMantissa, BitVec.extractLsb, BitVec.extractLsb', hiddenBit]

theorem isNegative_unpackSign (x : Float) :
    isNegative (Sign.ofBitVec (@unpackSign .binary64 x.toBits.toBitVec))
      = decide (signBit ≤ x.toBits.toNat) := by
  have hbit : (@unpackSign .binary64 x.toBits.toBitVec).toNat = x.toBits.toNat / signBit % 2 := by
    simp [unpackSign, BitVec.extractLsb, BitVec.extractLsb', Nat.shiftRight_eq_div_pow, signBit]
  have hlt : x.toBits.toNat < 2 * signBit := x.toBits.toNat_lt
  have hzero : @unpackSign .binary64 x.toBits.toBitVec = 0#1 ↔ ¬ signBit ≤ x.toBits.toNat := by
    rw [← BitVec.toNat_inj, hbit]
    show x.toBits.toNat / signBit % 2 = 0 ↔ _
    simp only [signBit] at *
    omega
  rw [Sign.ofBitVec]
  split
  · next h => simp [isNegative, hzero.mp h]
  · next h => simp [isNegative, Decidable.not_not.mp (mt hzero.mpr h)]

theorem toNat_one_append (m : BitVec 52) : (1#1 ++ m).toNat = hiddenBit + m.toNat := by
  have hlt := m.isLt
  rw [BitVec.toNat_append, ← Nat.shiftLeft_add_eq_or_of_lt hlt]
  rfl

/-- **The parts of a double are those of what it is unpacked to.** -/
theorem ofFloat?_eq (x : Float) : Binary.ofFloat? x = Binary.ofUnpacked? x.toModel.unpack := by
  have hfield := toNat_unpackExponent x
  have hfraction := toNat_unpackMantissa x
  have hall : @unpackExponent .binary64 x.toBits.toBitVec = -1#11
      ↔ x.toBits.toNat / hiddenBit % 2048 = 2047 := by
    rw [← hfield, ← BitVec.toNat_inj]
    rfl
  have hnone : @unpackExponent .binary64 x.toBits.toBitVec = 0#11
      ↔ x.toBits.toNat / hiddenBit % 2048 = 0 := by
    rw [← hfield, ← BitVec.toNat_inj]
    rfl
  have hempty : @unpackMantissa .binary64 x.toBits.toBitVec = 0#52
      ↔ x.toBits.toNat % hiddenBit = 0 := by
    rw [← hfraction, ← BitVec.toNat_inj]
    rfl
  show _ = Binary.ofUnpacked? (UnpackedFloat.unpack .binary64 x.toBits.toBitVec)
  unfold UnpackedFloat.unpack Binary.ofFloat?
  simp only [exponentBias_binary64]
  by_cases hinfinite : x.toBits.toNat / hiddenBit % 2048 = 2047
  · rw [if_pos hinfinite, if_pos (hall.mpr hinfinite)]
    split <;> rfl
  · rw [if_neg hinfinite, if_neg (mt hall.mp hinfinite)]
    by_cases hsmall : x.toBits.toNat / hiddenBit % 2048 = 0
    · rw [if_pos hsmall, if_pos (hnone.mpr hsmall)]
      split
      · next hzero =>
          rw [hempty.mp hzero]
          simp only [Binary.ofUnpacked?, isNegative_unpackSign]
      · simp only [Binary.ofUnpacked?, isNegative_unpackSign, hfraction, hfield, hsmall]
        rfl
    · have hwhole : (1#1 ++ @unpackMantissa .binary64 x.toBits.toBitVec).toNat
          = hiddenBit + x.toBits.toNat % hiddenBit := by
        rw [← hfraction]
        exact toNat_one_append _
      rw [if_neg hsmall, if_neg (mt hnone.mp hsmall)]
      simp only [Binary.ofUnpacked?, isNegative_unpackSign, hwhole, hfield]
      rfl

/-- A finite number as a normal double has it. -/
structure IsNormal (significand : Nat) (exponent : Int) : Prop where
  hidden : 2 ^ 52 ≤ significand
  le : significand < 2 ^ 53
  least : -1074 ≤ exponent
  greatest : exponent ≤ maxExponent

variable {significand : Nat} {exponent : Int}

theorem IsNormal.pos (h : IsNormal significand exponent) : 0 < significand :=
  Nat.lt_of_lt_of_le (by decide) h.hidden

theorem IsNormal.log2 (h : IsNormal significand exponent) : significand.log2 = 52 := by
  have hpos := h.pos
  have hlow := (Nat.le_log2 (k := 52) (by omega)).mpr h.hidden
  have hhigh := log2_lt_of_le h.le
  omega

/-- The field that an exponent is stored in. -/
def exponentField (exponent : Int) : Nat := (exponent + (1023 : Nat) + (52 : Nat)).toNat

/-- The field of a normal number is neither empty nor full. -/
theorem IsNormal.exponentField (h : IsNormal significand exponent) :
    0 < exponentField exponent ∧ exponentField exponent < 2047
      ∧ (exponentField exponent : Int) = exponent + 1023 + 52 := by
  have hleast := h.least
  have hgreatest : exponent ≤ 971 := h.greatest
  rw [Decimal.exponentField]
  omega

/-- The first bit of the significand is not stored. -/
theorem pack_normal (h : IsNormal significand exponent) (sign : Sign) :
    UnpackedFloat.pack .binary64 (.finite sign significand exponent h.pos)
      = packComponents .binary64 sign (BitVec.ofNat 11 (exponentField exponent))
          (BitVec.ofNat 52 significand) := by
  obtain ⟨-, hlt, -⟩ := h.exponentField
  have hnotOver : ¬ 2 ^ Format.binary64.exponentBits ≤ exponentField exponent + 1 := by
    show ¬ 2 ^ 11 ≤ exponentField exponent + 1
    omega
  have hfull : significand.log2 + 1 = Format.binary64.mantissaBits := by
    rw [h.log2]
    decide
  simp only [UnpackedFloat.pack, exponentBias_binary64]
  show (if 2 ^ Format.binary64.exponentBits ≤ exponentField exponent + 1 then _ else _) = _
  rw [if_neg hnotOver, if_pos hfull]
  rfl

/-- **A normal number comes back from packing.** -/
theorem unpack_packed (h : IsNormal significand exponent) (sign : Sign) :
    (packed (.finite sign significand exponent h.pos)).toModel.unpack
      = .finite sign significand exponent h.pos := by
  obtain ⟨hpos, hlt, hfield⟩ := h.exponentField
  have hbits : (BitVec.ofNat 11 (exponentField exponent)).toNat = exponentField exponent := by
    rw [BitVec.toNat_ofNat, Nat.mod_eq_of_lt (by omega)]
  have hnotAll : BitVec.ofNat 11 (exponentField exponent) ≠ -1#11 := by
    intro heq
    have hall : exponentField exponent = 2047 := hbits.symm.trans (congrArg BitVec.toNat heq)
    omega
  have hnotNone : BitVec.ofNat 11 (exponentField exponent) ≠ 0#11 := by
    intro heq
    have hnone : exponentField exponent = 0 := hbits.symm.trans (congrArg BitVec.toNat heq)
    omega
  have hsignificand : (1#1 ++ BitVec.ofNat 52 significand).toNat = significand := by
    have hhidden := h.hidden
    have hle := h.le
    rw [toNat_one_append, BitVec.toNat_ofNat, hiddenBit]
    omega
  show UnpackedFloat.unpack .binary64 (UnpackedFloat.pack .binary64 _) = _
  rw [pack_normal h]
  unfold UnpackedFloat.unpack
  simp only [exponentBias_binary64, unpackExponent_packComponents, unpackMantissa_packComponents]
  rw [if_neg hnotAll, if_neg hnotNone]
  congr 1
  · rw [unpackSign_packComponents, Sign.ofBitVec_toBitVec]
  · show ((BitVec.ofNat 11 (exponentField exponent)).toNat : Int) - ((1023 : Nat) + (52 : Nat)) = exponent
    omega

/-! ## Rounding -/

/-- Nothing but zeros is shifted out of a number that was moved to the left before. -/
theorem shiftRight_exact (n : Nat) {shifts places : Nat} (h : shifts ≤ places) :
    ExtendedMantissa.ofMantissaAndAccuracy (n * 2 ^ places) .exact >>> shifts
      = ⟨n * 2 ^ (places - shifts), false, false⟩ := by
  induction shifts with
  | zero => rfl
  | succ shifts ih =>
      have hpower : n * 2 ^ (places - shifts) = n * 2 ^ (places - (shifts + 1)) * 2 := by
        have hplaces : places - shifts = places - (shifts + 1) + 1 := by omega
        rw [hplaces, Nat.pow_succ, ← Nat.mul_assoc]
      show (ExtendedMantissa.ofMantissaAndAccuracy (n * 2 ^ places) .exact >>> shifts).shiftRightOne = _
      rw [ih (by omega), hpower]
      simp [ExtendedMantissa.shiftRightOne]

theorem IsNormal.log2_shifted (h : IsNormal significand exponent) (places : Nat) :
    (significand * 2 ^ places).log2 = 52 + places := by
  have hpos : 0 < significand * 2 ^ places := Nat.mul_pos h.pos (Nat.two_pow_pos _)
  have hlow : 52 + places ≤ (significand * 2 ^ places).log2 := by
    rw [Nat.le_log2 (by omega), Nat.pow_add]
    exact Nat.mul_le_mul_right _ h.hidden
  have hhigh : (significand * 2 ^ places).log2 ≤ 52 + places := by
    apply log2_lt_of_le
    rw [show 52 + places + 1 = 53 + places by omega, Nat.pow_add]
    exact Nat.mul_lt_mul_of_pos_right h.le (Nat.two_pow_pos _)
  omega

theorem shiftToTargetExponent_exact (h : IsNormal significand exponent) (places : Nat) :
    shiftToTargetExponent .binary64 (significand * 2 ^ places) (exponent - places) .exact
      = (⟨significand, false, false⟩, exponent) := by
  have hleast := h.least
  have hshifts : (roundedExponent (significand * 2 ^ places) (exponent - places)
      - (exponent - places)).toNat = places := by
    rw [roundedExponent, h.log2_shifted]
    omega
  have hshifted := shiftRight_exact significand (Nat.le_refl places)
  rw [Nat.sub_self, Nat.pow_zero, Nat.mul_one] at hshifted
  show (ExtendedMantissa.ofMantissaAndAccuracy _ _
      >>> (roundedExponent (significand * 2 ^ places) (exponent - places) - (exponent - places)).toNat,
    exponent - places + ((roundedExponent (significand * 2 ^ places) (exponent - places)
      - (exponent - places)).toNat : Int)) = _
  rw [hshifts, hshifted, Int.sub_add_cancel]

/-- **A normal number comes back from rounding**, wherever it stands. -/
theorem round_exact (h : IsNormal significand exponent) (sign : Sign) (places : Nat) :
    roundWithAccuracy .binary64 sign (significand * 2 ^ places) (exponent - places) .exact
      = .finite sign significand exponent h.pos := by
  have hagain := shiftToTargetExponent_exact h 0
  rw [Nat.pow_zero, Nat.mul_one, Int.natCast_zero, Int.sub_zero] at hagain
  have hrounded : ExtendedMantissa.roundedMantissa ⟨significand, false, false⟩ = significand := rfl
  have hpos : significand ≠ 0 := Nat.pos_iff_ne_zero.mp h.pos
  simp only [roundWithAccuracy, shiftToTargetExponent_exact h, hrounded, hagain]
  rw [dif_neg hpos]

/-! ## Whole numbers -/

/-- The whole number that a significand and an exponent stand for; a fraction would have to be
nothing but zeros. -/
def IsWholeOf (n significand : Nat) (exponent : Int) : Prop :=
  significand * 2 ^ exponent.toNat = n * 2 ^ (-exponent).toNat

variable {n : Nat}

/-- A whole number moved to the left far enough is its significand, moved to the left. -/
theorem IsWholeOf.shifted (h : IsWholeOf n significand exponent) (places : Nat)
    (hplaces : 0 ≤ exponent + places) :
    n * 2 ^ places = significand * 2 ^ (exponent + places).toNat := by
  rw [IsWholeOf] at h
  by_cases hsign : 0 ≤ exponent
  · have hnone : (-exponent).toNat = 0 := by omega
    rw [hnone, Nat.pow_zero, Nat.mul_one] at h
    rw [← h, Nat.mul_assoc, ← Nat.pow_add]
    congr 2
    omega
  · have hnone : exponent.toNat = 0 := by omega
    rw [hnone, Nat.pow_zero, Nat.mul_one] at h
    rw [h, Nat.mul_assoc, ← Nat.pow_add]
    congr 2
    omega

/-- A whole number of at most 53 bits and zeros is one that a normal double has. -/
theorem exists_isNormal {bits zeros : Nat} (hpos : 0 < bits) (hbits : bits < 2 ^ 53)
    (hzeros : (zeros : Int) ≤ maxExponent) :
    ∃ significand exponent, IsNormal significand exponent ∧ -52 ≤ exponent
      ∧ IsWholeOf (bits * 2 ^ zeros) significand exponent := by
  have hlog : bits.log2 ≤ 52 := log2_lt_of_le hbits
  have hlow : 2 ^ bits.log2 ≤ bits := Nat.log2_self_le (by omega)
  have hhigh : bits < 2 ^ (bits.log2 + 1) := Nat.lt_log2_self
  have hfull : 2 ^ bits.log2 * 2 ^ (52 - bits.log2) = 2 ^ 52 := by
    rw [← Nat.pow_add]
    congr 1
    omega
  have hdouble : 2 ^ (bits.log2 + 1) * 2 ^ (52 - bits.log2) = 2 ^ 53 := by
    rw [← Nat.pow_add]
    congr 1
    omega
  refine ⟨bits * 2 ^ (52 - bits.log2), zeros - (52 - bits.log2 : Nat), ⟨?_, ?_, ?_, ?_⟩, ?_, ?_⟩
  · exact hfull ▸ Nat.mul_le_mul_right _ hlow
  · exact hdouble ▸ Nat.mul_lt_mul_of_pos_right hhigh (Nat.two_pow_pos _)
  · omega
  · omega
  · omega
  · rw [IsWholeOf, Nat.mul_assoc, Nat.mul_assoc, ← Nat.pow_add, ← Nat.pow_add]
    congr 2
    omega

theorem IsWholeOf.pos (h : IsWholeOf n significand exponent) (hpos : 0 < significand) : 0 < n := by
  apply Nat.pos_of_ne_zero
  rintro rfl
  have hproduct : 0 < significand * 2 ^ exponent.toNat := Nat.mul_pos hpos (Nat.two_pow_pos _)
  rw [h, Nat.zero_mul] at hproduct
  exact Nat.lt_irrefl 0 hproduct

/-- A whole number that is moved to the left and then rounded is that of a normal double. -/
theorem round_shifted (h : IsNormal significand exponent) (hn : IsWholeOf n significand exponent)
    (sign : Sign) (places : Nat) (hplaces : 0 ≤ exponent + places) :
    roundWithAccuracy .binary64 sign (n <<< places) (-(places : Int)) .exact
      = .finite sign significand exponent h.pos := by
  have hexponent : -(places : Int) = exponent - ((exponent + places).toNat : Int) := by omega
  rw [Nat.shiftLeft_eq, hn.shifted places hplaces, hexponent]
  exact round_exact h sign _

/-- A whole number below `2 ^ 53` fills its 53 bits when it is moved to the left far enough. -/
theorem IsWholeOf.log2 (h : IsNormal significand exponent) (hn : IsWholeOf n significand exponent)
    (hlt : n < 2 ^ 53) : 0 ≤ exponent + (52 - n.log2 : Nat) := by
  by_cases hsign : 0 ≤ exponent
  · omega
  · have hnone : exponent.toNat = 0 := by omega
    have heq : significand = n * 2 ^ (-exponent).toNat := by simpa [IsWholeOf, hnone] using hn
    have hpos := hn.pos h.pos
    have hlow : 2 ^ n.log2 ≤ n := Nat.log2_self_le (by omega)
    have hpower : 2 ^ (n.log2 + (-exponent).toNat) < 2 ^ 53 := by
      calc 2 ^ (n.log2 + (-exponent).toNat)
          = 2 ^ n.log2 * 2 ^ (-exponent).toNat := Nat.pow_add ..
        _ ≤ significand := heq ▸ Nat.mul_le_mul_right _ hlow
        _ < 2 ^ 53 := h.le
    have hbits := (Nat.pow_lt_pow_iff_right (by decide)).mp hpower
    omega

/-- The double of a small whole number comes from rounding its 53 bits. -/
theorem ofNat_eq (h : IsNormal significand exponent) (hn : IsWholeOf n significand exponent)
    (hlt : n < 2 ^ 53) :
    UnpackedFloat.ofNat .binary64 n = .finite .positive significand exponent h.pos := by
  have hpos := hn.pos h.pos
  have hlog := log2_lt_of_le hlt
  have hround : UnpackedFloat.round .binary64 .positive n 0
      = roundWithAccuracy .binary64 .positive (n <<< (0 - roundedExponent n 0).toNat)
          (0 - ((0 - roundedExponent n 0).toNat : Int)) .exact := rfl
  have hplaces : (0 - roundedExponent n 0).toNat = 52 - n.log2 := by
    rw [roundedExponent]
    omega
  rw [hplaces, Int.zero_sub, round_shifted h hn _ _ (hn.log2 h hlt)] at hround
  unfold UnpackedFloat.ofNat UnpackedFloat.ofInt UnpackedFloat.normalize
  have hcompare : compare (n : Int) 0 = .gt := Int.compare_eq_gt.mpr (by omega)
  rw [hcompare]
  exact hround

/-- **A whole number that a normal double has is made to that double.** -/
theorem ofWhole_eq (h : IsNormal significand exponent) (hleast : -52 ≤ exponent)
    (hn : IsWholeOf n significand exponent) :
    ofWhole n = packed (.finite .positive significand exponent h.pos) := by
  have hpos := hn.pos h.pos
  rcases ofWhole_cases n with ⟨hlt, heq⟩ | heq
  · have hsame : n.toUInt64.toNat = n := UInt64.toNat_ofNat_of_lt (Nat.lt_trans hlt (by decide))
    have hwhole : n.toUInt64.toFloat = packed (.finite .positive significand exponent h.pos) := by
      show packed (UnpackedFloat.ofNat .binary64 n.toUInt64.toNat) = _
      rw [hsame, ofNat_eq h hn hlt]
    have hone : (1 : Float).toModel.unpack
        = .finite .positive (2 ^ 52) (-(52 : Nat) : Int) (by decide) := rfl
    rw [heq, hwhole]
    show packed (UnpackedFloat.mul .binary64
      (packed (.finite .positive significand exponent h.pos)).toModel.unpack
      (1 : Float).toModel.unpack) = _
    rw [unpack_packed h, hone, mul_finite]
    exact congrArg packed (round_exact h .positive 52)
  · have hlow : ¬ (0 : Int) < -((2 ^ Format.binary64.exponentBits : Int) + n.log2) := by
      show ¬ (0 : Int) < -((2 ^ 11 : Int) + n.log2)
      omega
    rw [heq]
    unfold UnpackedFloat.ofScientific
    rw [dif_neg (by omega), if_neg (by decide), if_neg hlow, if_pos (by decide), mul_finite,
      Int.toNat_zero, Nat.pow_zero, Nat.mul_one, Int.add_zero]
    exact congrArg packed (round_shifted h hn .positive 53 (by omega))

theorem ofFloat?_ofWhole (h : IsNormal significand exponent) (hleast : -52 ≤ exponent)
    (hn : IsWholeOf n significand exponent) :
    Binary.ofFloat? (ofWhole n) = some ⟨false, significand, exponent⟩ := by
  rw [ofFloat?_eq, ofWhole_eq h hleast hn, unpack_packed h]
  rfl

/-- The whole part of a double that is at least one is a double. -/
theorem exists_isNormal_floor {x : Float} {b : Binary} (hb : Binary.ofFloat? x = some b)
    (hfloor : 0 < b.floor) :
    ∃ significand exponent, IsNormal significand exponent ∧ -52 ≤ exponent
      ∧ IsWholeOf b.floor significand exponent := by
  obtain ⟨hsignificand, hexponent⟩ := bounds_of_ofFloat? hb
  have hbits : b.significand < 2 ^ 53 := Nat.lt_of_le_of_lt hsignificand (by decide)
  unfold Binary.floor at hfloor ⊢
  split
  · next hsign =>
      rw [if_pos hsign] at hfloor
      exact exists_isNormal (Nat.pos_of_mul_pos_right hfloor) hbits (by omega)
  · next hsign =>
      rw [if_neg hsign] at hfloor
      have hlt : b.significand / Nat.pow 2 (-b.exponent).toNat < 2 ^ 53 :=
        Nat.lt_of_le_of_lt (Nat.div_le_self ..) hbits
      simpa using @exists_isNormal _ 0 hfloor hlt (by decide)

/-! ## Order -/

/-- A double that is not tiny has all its bits. -/
theorem hidden_or_least {x : Float} {b : Binary} (hb : Binary.ofFloat? x = some b) :
    2 ^ 52 ≤ b.significand ∨ b.exponent = -1074 := by
  unfold Binary.ofFloat? at hb
  simp only at hb
  split at hb
  · simp at hb
  · split at hb
    · obtain rfl := Option.some.inj hb
      exact .inr rfl
    · obtain rfl := Option.some.inj hb
      exact .inl (Nat.le_add_right ..)

/-- The whole part is at least one if the number is. -/
theorem floor_pos_iff {x : Float} {b : Binary} (hb : Binary.ofFloat? x = some b)
    (hpos : 0 < b.significand) :
    0 < b.floor ↔ -52 < b.exponent ∨ -52 = b.exponent ∧ 2 ^ 52 ≤ b.significand := by
  have hbits : b.significand < 2 ^ 53 :=
    Nat.lt_of_le_of_lt (bounds_of_ofFloat? hb).1 (by decide)
  have hhidden := hidden_or_least hb
  unfold Binary.floor
  split
  · next hsign =>
      have hproduct : 0 < b.significand * Nat.pow 2 b.exponent.toNat :=
        Nat.mul_pos hpos (Nat.two_pow_pos _)
      exact iff_of_true hproduct (.inl (by omega))
  · next hsign =>
      obtain ⟨places, hplaces⟩ : ∃ places : Nat, -b.exponent = places :=
        ⟨(-b.exponent).toNat, by omega⟩
      rw [hplaces, Int.toNat_natCast, Nat.div_pos_iff]
      show 0 < 2 ^ places ∧ 2 ^ places ≤ b.significand ↔ _
      have hunit : 0 < 2 ^ places := Nat.two_pow_pos _
      rcases Nat.lt_trichotomy places 52 with hless | heq | hmore
      · have hle : 2 ^ places ≤ 2 ^ 52 := Nat.pow_le_pow_right (by decide) (by omega)
        omega
      · subst heq
        omega
      · have hge : 2 ^ 53 ≤ 2 ^ places := Nat.pow_le_pow_right (by decide) hmore
        omega

/-- **A finite double is at least one if it is not negative and its whole part is.** -/
theorem one_le_iff {x : Float} {b : Binary} (hb : Binary.ofFloat? x = some b) :
    1 ≤ x ↔ b.negative = false ∧ 0 < b.floor := by
  have hone : (1 : Float).toModel.unpack
      = .finite .positive (2 ^ 52) (-(52 : Nat) : Int) (by decide) := rfl
  have hle : 1 ≤ x ↔ UnpackedFloat.le (1 : Float).toModel.unpack x.toModel.unpack = true := by
    show decide ((1 : Float).toModel ≤ x.toModel) = true ↔ _
    exact decide_eq_true_iff
  have hparts := hb
  rw [ofFloat?_eq] at hparts
  rw [hle, hone, UnpackedFloat.le]
  cases hx : x.toModel.unpack with
  | infinity sign => simp [hx, Binary.ofUnpacked?] at hparts
  | notANumber => simp [hx, Binary.ofUnpacked?] at hparts
  | zero sign =>
      rw [hx] at hparts
      obtain rfl := Option.some.inj hparts
      have hfloor : ¬ 0 < (⟨isNegative sign, 0, -1074⟩ : Binary).floor := by
        have hsign : ¬ (0 : Int) ≤ -1074 := by decide
        rw [Binary.floor, if_neg hsign, Nat.zero_div]
        exact Nat.lt_irrefl 0
      simp [UnpackedFloat.compare, hfloor]
  | finite sign significand exponent hpos =>
      rw [hx] at hparts
      obtain rfl := Option.some.inj hparts
      cases sign with
      | negative => simp [UnpackedFloat.compare, isNegative]
      | positive =>
          rw [floor_pos_iff hb hpos]
          show ((compare (-52) exponent).then (compare (2 ^ 52) significand)).isLE = true ↔ _
          rw [Ordering.isLE_then_iff_or, Int.compare_eq_lt, Int.compare_eq_eq, Nat.isLE_compare]
          simp [isNegative]

end CanvasFlutter.Decimal
