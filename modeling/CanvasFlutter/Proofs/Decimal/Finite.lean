import Mathlib
import CanvasFlutter.Decimal.Binary

namespace CanvasFlutter.Decimal

/-!
# `CanvasFlutter.Proofs.Decimal.Finite` — arithmetic that does not leave the finite doubles

Multiplying a double by at most one, rounding it to a whole number and changing its sign give a
finite double if they start from one. Doubles are taken through the logical model of the core
library: a result is rounded to 53 bits and then packed, and packing overflows only if the exponent
got too large.

## Contents
- **Rounding.** `Shifted` is what shifting a significand to the right keeps; `isSmall_round`.
- **Packing.** `IsSmall` numbers are packed as finite doubles, and finite doubles are small.
- **Operations.** `isFinite_mul`, `isFinite_neg`, `isFinite_ofWhole`, `isFinite_roundHalfAway`.
-/

open Float.Model Float.Model.UnpackedFloat

/-- The greatest significand of a double. -/
def maxSignificand : Nat := 2 ^ 53 - 1

/-- The greatest exponent of a finite double. -/
def maxExponent : Int := 971

/-! ## Rounding -/

/-- What is left of a significand after some shifts to the right: no more than its share, and less if
a bit that was lost was set. -/
structure Shifted (significand shifts : Nat) (left : ExtendedMantissa) : Prop where
  le : left.mantissa * 2 ^ shifts ≤ significand
  lt : (left.roundBit || left.stickyBit) = true → left.mantissa * 2 ^ shifts < significand

theorem Shifted.zero (significand : Nat) :
    Shifted significand 0 (ExtendedMantissa.ofMantissaAndAccuracy significand .exact) where
  le := by simp [ExtendedMantissa.ofMantissaAndAccuracy]
  lt h := by simp [ExtendedMantissa.ofMantissaAndAccuracy] at h

theorem Shifted.succ {significand shifts : Nat} {left : ExtendedMantissa}
    (h : Shifted significand shifts left) :
    Shifted significand (shifts + 1) left.shiftRightOne := by
  have hpos : 0 < 2 ^ shifts := Nat.two_pow_pos shifts
  have hhalf : left.mantissa / 2 * 2 ^ (shifts + 1) + left.mantissa % 2 * 2 ^ shifts
      = left.mantissa * 2 ^ shifts := by
    rw [Nat.pow_succ, ← Nat.mul_assoc, Nat.mul_right_comm, ← Nat.add_mul, Nat.div_add_mod']
  have hle : left.mantissa / 2 * 2 ^ (shifts + 1) ≤ left.mantissa * 2 ^ shifts := by omega
  refine ⟨Nat.le_trans hle h.le, fun hlost => ?_⟩
  have hbits : left.mantissa % 2 ≠ 0 ∨ (left.roundBit || left.stickyBit) = true := by
    simpa [ExtendedMantissa.shiftRightOne, Bool.or_eq_true, bne_iff_ne] using hlost
  rcases hbits with hodd | hearlier
  · have hone : left.mantissa % 2 = 1 := by omega
    rw [hone, Nat.one_mul] at hhalf
    have hbound := h.le
    show left.mantissa / 2 * 2 ^ (shifts + 1) < significand
    omega
  · exact Nat.lt_of_le_of_lt hle (h.lt hearlier)

theorem shifted_repeat (significand shifts : Nat) :
    Shifted significand shifts
      (ExtendedMantissa.ofMantissaAndAccuracy significand .exact >>> shifts) := by
  induction shifts with
  | zero => exact .zero significand
  | succ shifts ih => exact ih.succ

/-- Rounding what is left does not go beyond a bound that the significand kept to. -/
theorem Shifted.rounded_le {significand shifts bound : Nat} {left : ExtendedMantissa}
    (h : Shifted significand shifts left) (hbound : significand ≤ bound * 2 ^ shifts) :
    left.roundedMantissa ≤ bound := by
  have hpos : 0 < 2 ^ shifts := Nat.two_pow_pos shifts
  obtain ⟨mantissa, roundBit, stickyBit⟩ := left
  have hle : mantissa ≤ bound := Nat.le_of_mul_le_mul_right (Nat.le_trans h.le hbound) hpos
  have hlt : (roundBit || stickyBit) = true → mantissa < bound := fun hlost =>
    Nat.lt_of_mul_lt_mul_right (Nat.lt_of_lt_of_le (h.lt hlost) hbound)
  cases roundBit <;> cases stickyBit
  · exact hle
  · exact hle
  · have := hlt rfl
    show mantissa + mantissa % 2 ≤ bound
    omega
  · exact hlt rfl

/-- A number that is packed without an overflow. -/
def IsSmall : UnpackedFloat → Prop
  | .zero _ => True
  | .finite _ _ exponent _ => exponent ≤ maxExponent
  | _ => False

/-- The exponent that a number is shifted to, so that its significand has 53 bits. -/
def roundedExponent (significand : Nat) (exponent : Int) : Int :=
  max ((significand.log2 : Int) + 1 + exponent - 53) (-1074)

theorem log2_lt_of_le {n bits : Nat} (h : n < 2 ^ (bits + 1)) : n.log2 ≤ bits := by
  by_cases hn : n = 0
  · simp [hn]
  · have := (Nat.log2_lt hn).mpr h
    omega

/-- A number of at most the greatest significand at the greatest exponent is rounded to a small
one. -/
theorem isSmall_round {significand : Nat} {exponent : Int} (sign : Sign)
    (hexponent : exponent ≤ maxExponent)
    (hsignificand : significand ≤ maxSignificand * 2 ^ (maxExponent - exponent).toNat) :
    IsSmall (roundWithAccuracy .binary64 sign significand exponent .exact) := by
  obtain ⟨shifts, hshifts⟩ : ∃ shifts, shifts = (roundedExponent significand exponent - exponent).toNat :=
    ⟨_, rfl⟩
  obtain ⟨left, hleft⟩ : ∃ left,
      left = ExtendedMantissa.ofMantissaAndAccuracy significand .exact >>> shifts := ⟨_, rfl⟩
  obtain ⟨again, hagain⟩ : ∃ again, again = (roundedExponent left.roundedMantissa (exponent + shifts)
      - (exponent + shifts)).toNat := ⟨_, rfl⟩
  have hround : ∃ last, roundWithAccuracy .binary64 sign significand exponent .exact
      = if h : last = 0 then .zero sign
        else .finite sign last (exponent + shifts + again) (Nat.pos_of_ne_zero h) := by
    subst hagain hleft hshifts
    exact ⟨_, rfl⟩
  have hshifted : Shifted significand shifts left := hleft ▸ shifted_repeat significand shifts
  -- after the first shift at most 53 bits are left, and rounding them up gives at most 2 ^ 53
  have hbits : significand < 2 ^ 53 * 2 ^ shifts := by
    rw [← Nat.pow_add]
    refine Nat.lt_of_lt_of_le Nat.lt_log2_self (Nat.pow_le_pow_right (by decide) ?_)
    simp only [roundedExponent] at hshifts
    omega
  have hrounded : left.roundedMantissa ≤ 2 ^ 53 := hshifted.rounded_le (Nat.le_of_lt hbits)
  have hlog : left.roundedMantissa.log2 ≤ 53 := log2_lt_of_le (by omega)
  have hbound : significand.log2 ≤ 52 + (maxExponent - exponent).toNat := by
    refine log2_lt_of_le (Nat.lt_of_le_of_lt hsignificand ?_)
    rw [show 52 + (maxExponent - exponent).toNat + 1 = 53 + (maxExponent - exponent).toNat by omega,
      Nat.pow_add]
    exact Nat.mul_lt_mul_of_pos_right (by decide) (Nat.two_pow_pos _)
  have hsum : exponent + shifts + again ≤ maxExponent := by
    simp only [roundedExponent] at hshifts hagain
    unfold maxExponent at *
    by_cases hfull : exponent + shifts = 971
    · -- at the greatest exponent the bound itself is what is left
      have hpart : left.roundedMantissa ≤ maxSignificand := by
        refine hshifted.rounded_le ?_
        rwa [show shifts = (971 - exponent).toNat by omega]
      have hlast : left.roundedMantissa.log2 ≤ 52 :=
        log2_lt_of_le (Nat.lt_of_le_of_lt hpart (by decide))
      omega
    · omega
  obtain ⟨last, hlast⟩ := hround
  rw [hlast]
  split
  · trivial
  · exact hsum

/-! ## Packing -/

/-- The double of a number. -/
def packed (f : UnpackedFloat) : Float := .ofModel (Float.Model.pack f)

/-- A number as a finite double has it. -/
def IsLoaded : UnpackedFloat → Prop
  | .zero _ => True
  | .finite _ significand exponent _ => significand ≤ maxSignificand ∧ exponent ≤ maxExponent
  | _ => False

theorem toNat_unpackExponent (x : Float) :
    (@unpackExponent .binary64 x.toBits.toBitVec).toNat
      = x.toBits.toNat / hiddenBit % 2048 := by
  simp [unpackExponent, BitVec.extractLsb, BitVec.extractLsb', Nat.shiftRight_eq_div_pow, hiddenBit]

/-- A double is finite unless all bits of its exponent are set. -/
theorem isFinite_iff (x : Float) :
    isFinite x = true ↔ @unpackExponent .binary64 x.toBits.toBitVec ≠ -1#11 := by
  have hfield : @unpackExponent .binary64 x.toBits.toBitVec = -1#11
      ↔ x.toBits.toNat / hiddenBit % 2048 = 2047 := by
    rw [← toNat_unpackExponent, ← BitVec.toNat_inj]
    rfl
  rw [ne_eq, hfield]
  unfold isFinite Binary.ofFloat?
  simp only
  split
  · next h => simp [h]
  · next h => split <;> simp [h]

theorem exponentBias_binary64 : Format.exponentBias .binary64 = 1023 := by decide

theorem isFinite_packed {f : UnpackedFloat} (h : IsSmall f) : isFinite (packed f) = true := by
  rw [isFinite_iff]
  show @unpackExponent .binary64 (UnpackedFloat.pack .binary64 f) ≠ -1#11
  cases f with
  | infinity sign => exact h.elim
  | notANumber => exact h.elim
  | zero sign => simp [UnpackedFloat.pack, packedZero]
  | finite sign significand exponent hpos =>
      have hexponent : exponent ≤ 971 := h
      simp only [UnpackedFloat.pack, exponentBias_binary64]
      split
      · next hoverflow =>
          have hlarge : 2048 ≤ (exponent + 1023 + 52).toNat + 1 := hoverflow
          omega
      · split
        · rw [unpackExponent_packComponents]
          intro heq
          have hfield := congrArg BitVec.toNat heq
          simp at hfield
          omega
        · rw [unpackExponent_packComponents]
          decide

theorem isLoaded_unpack {x : Float} (h : isFinite x = true) : IsLoaded x.toModel.unpack := by
  rw [isFinite_iff] at h
  have hfield : (@unpackExponent .binary64 x.toBits.toBitVec).toNat ≠ 2047 :=
    fun heq => h (BitVec.eq_of_toNat_eq heq)
  have hlt := (@unpackExponent .binary64 x.toBits.toBitVec).isLt
  have hfraction := (@unpackMantissa .binary64 x.toBits.toBitVec).isLt
  have hwhole := (1#1 ++ @unpackMantissa .binary64 x.toBits.toBitVec).isLt
  simp only [Format.binary64] at hlt hfraction hwhole
  show IsLoaded (UnpackedFloat.unpack .binary64 x.toBits.toBitVec)
  unfold UnpackedFloat.unpack
  simp only [exponentBias_binary64]
  rw [if_neg h]
  split
  · next hzero =>
      split
      · trivial
      · simp only [IsLoaded, maxSignificand, maxExponent, hzero]
        exact ⟨by omega, by decide⟩
  · simp only [IsLoaded, maxSignificand, maxExponent]
    exact ⟨by omega, by omega⟩

/-! ## Operations -/

theorem isFinite_neg {x : Float} (h : isFinite x = true) : isFinite (-x) = true := by
  refine isFinite_packed (f := x.toModel.unpack.neg) ?_
  have hloaded := isLoaded_unpack h
  cases hx : x.toModel.unpack with
  | finite sign significand exponent hpos => exact (hx ▸ hloaded).2
  | zero sign => trivial
  | infinity sign => exact (hx ▸ hloaded).elim
  | notANumber => exact (hx ▸ hloaded).elim

/-- Multiplying by a number of at most one. -/
theorem isFinite_mul {x y : Float} (h : isFinite x = true) {sign : Sign} {significand places : Nat}
    {hpos : 0 < significand}
    (hy : y.toModel.unpack = .finite sign significand (-(places : Int)) hpos)
    (hone : significand ≤ 2 ^ places) : isFinite (x * y) = true := by
  refine isFinite_packed (f := UnpackedFloat.mul .binary64 x.toModel.unpack y.toModel.unpack) ?_
  have hloaded := isLoaded_unpack h
  rw [hy]
  cases hx : x.toModel.unpack with
  | infinity sign => exact (hx ▸ hloaded).elim
  | notANumber => exact (hx ▸ hloaded).elim
  | zero sign => trivial
  | finite sign' significand' exponent' hpos' =>
      rw [hx] at hloaded
      obtain ⟨hsignificand, hexponent⟩ := hloaded
      refine isSmall_round _ (by omega) ?_
      have hshift : (maxExponent - (exponent' + -(places : Int))).toNat
          = places + (maxExponent - exponent').toNat := by omega
      calc significand' * significand
          ≤ maxSignificand * 2 ^ places := Nat.mul_le_mul hsignificand hone
        _ ≤ maxSignificand * 2 ^ (maxExponent - (exponent' + -(places : Int))).toNat := by
            rw [hshift]
            exact Nat.mul_le_mul_left _ (Nat.pow_le_pow_right (by decide) (by omega))

/-- A whole number up to the greatest double, moved to the left, is rounded to a small number. -/
theorem isSmall_round_shifted {n : Nat} (h : n ≤ maxSignificand * 2 ^ maxExponent.toNat)
    (sign : Sign) (shifts : Nat) :
    IsSmall (roundWithAccuracy .binary64 sign (n <<< shifts) (-(shifts : Int)) .exact) := by
  refine isSmall_round _ (by simp only [maxExponent]; omega) ?_
  have hshift : (maxExponent - -(shifts : Int)).toNat = maxExponent.toNat + shifts := by
    simp only [maxExponent]
    omega
  have hgrow : ∀ e, n ≤ maxSignificand * 2 ^ e → n * 2 ^ shifts ≤ maxSignificand * 2 ^ (e + shifts) := by
    intro e he
    rw [Nat.pow_add, ← Nat.mul_assoc]
    exact Nat.mul_le_mul_right _ he
  rw [Nat.shiftLeft_eq, hshift]
  exact hgrow _ h

theorem isSmall_ofNat {n : Nat} (h : n ≤ maxSignificand * 2 ^ maxExponent.toNat) :
    IsSmall (UnpackedFloat.ofNat .binary64 n) := by
  obtain ⟨shifts, hround⟩ : ∃ shifts : Nat, UnpackedFloat.round .binary64 .positive n 0
      = roundWithAccuracy .binary64 .positive (n <<< shifts) (0 - (shifts : Int)) .exact :=
    ⟨_, rfl⟩
  have hsmall := isSmall_round_shifted h .positive shifts
  rw [← Int.zero_sub, ← hround] at hsmall
  unfold UnpackedFloat.ofNat UnpackedFloat.ofInt UnpackedFloat.normalize
  split
  · next hlt =>
      have hnegative := Int.compare_eq_lt.mp hlt
      omega
  · trivial
  · exact hsmall

/-- The double of a whole number is the number times one, where both are doubles, and else what the
number is rounded to. -/
theorem ofWhole_cases (n : Nat) : n < 2 ^ 53 ∧ ofWhole n = n.toUInt64.toFloat * 1
    ∨ ofWhole n = packed (UnpackedFloat.ofScientific .binary64 n 0) := by
  rw [ofWhole, Float.ofScientific]
  split
  · next hfast => exact .inl ⟨hfast.1, rfl⟩
  · exact .inr rfl

theorem mul_finite (sign other : Sign) {m n : Nat} {e f : Int} (hm : 0 < m) (hn : 0 < n) :
    UnpackedFloat.mul .binary64 (.finite sign m e hm) (.finite other n f hn)
      = roundWithAccuracy .binary64 (sign * other) (m * n) (e + f) .exact :=
  rfl

/-- A whole number that is not beyond the greatest double. -/
theorem isFinite_ofWhole {n : Nat} (h : n ≤ maxSignificand * 2 ^ maxExponent.toNat) :
    isFinite (ofWhole n) = true := by
  rcases ofWhole_cases n with ⟨hlt, heq⟩ | heq
  · have hn : n.toUInt64.toNat = n := UInt64.toNat_ofNat_of_lt (Nat.lt_trans hlt (by decide))
    have hwhole : isFinite n.toUInt64.toFloat = true := by
      refine isFinite_packed (f := UnpackedFloat.ofNat .binary64 n.toUInt64.toNat) ?_
      exact isSmall_ofNat (hn.symm ▸ h)
    have hone : (1 : Float).toModel.unpack
        = .finite .positive (2 ^ 52) (-(52 : Nat) : Int) (by decide) := rfl
    rw [heq]
    exact isFinite_mul hwhole hone (by decide)
  · rw [heq]
    refine isFinite_packed ?_
    unfold UnpackedFloat.ofScientific
    split
    · trivial
    · have hlow : ¬ (0 : Int) < -((2 ^ Format.binary64.exponentBits : Int) + n.log2) := by
        show ¬ (0 : Int) < -((2 ^ 11 : Int) + n.log2)
        omega
      rw [if_neg (by decide), if_neg hlow, if_pos (by decide), mul_finite, Int.toNat_zero,
        Nat.pow_zero, Nat.mul_one, Int.add_zero]
      exact isSmall_round_shifted h _ _

/-- The parts of a finite double are within those of the greatest one. -/
theorem bounds_of_ofFloat? {x : Float} {b : Binary} (h : Binary.ofFloat? x = some b) :
    b.significand ≤ maxSignificand ∧ b.exponent ≤ maxExponent := by
  have hfraction : x.toBits.toNat % hiddenBit < 2 ^ 52 := Nat.mod_lt _ (by decide)
  have hhidden : hiddenBit = 2 ^ 52 := rfl
  have hfield : x.toBits.toNat / hiddenBit % 2048 < 2048 := Nat.mod_lt _ (by decide)
  unfold Binary.ofFloat? at h
  simp only at h
  simp only [maxSignificand, maxExponent]
  split at h
  · simp at h
  · split at h
    · cases h
      exact ⟨by simp only; omega, by simp only; omega⟩
    · cases h
      exact ⟨by simp only; omega, by simp only; omega⟩

theorem nearest_le {x : Float} {b : Binary} (h : Binary.ofFloat? x = some b) :
    b.nearest ≤ maxSignificand * 2 ^ maxExponent.toNat := by
  obtain ⟨hsignificand, hexponent⟩ := bounds_of_ofFloat? h
  obtain ⟨power, hpower⟩ : ∃ power, power = maxExponent.toNat := ⟨_, rfl⟩
  have hleft : maxSignificand * 2 ≤ maxSignificand * 2 ^ power :=
    Nat.mul_le_mul_left _ (Nat.le_self_pow (by rw [hpower]; decide) 2)
  rw [← hpower]
  unfold Binary.nearest
  split
  · exact Nat.mul_le_mul hsignificand (Nat.pow_le_pow_right (by decide) (by omega))
  · -- a number below the whole ones is rounded up by at most one half
    obtain ⟨unit, hunit⟩ : ∃ unit, unit = Nat.pow 2 (-b.exponent).toNat := ⟨_, rfl⟩
    rw [← hunit]
    have hpos : 0 < unit := hunit ▸ Nat.two_pow_pos _
    have hup : (2 * b.significand + unit) / (2 * unit) ≤ b.significand + 1 := by
      refine Nat.div_le_of_le_mul ?_
      have hshare : 1 * b.significand ≤ unit * b.significand := Nat.mul_le_mul_right _ hpos
      rw [Nat.mul_add, Nat.mul_assoc]
      omega
    have hmax : 0 < maxSignificand := by decide
    omega

theorem isFinite_roundHalfAway {x : Float} (h : isFinite x = true) :
    isFinite (roundHalfAway x) = true := by
  obtain ⟨b, hb⟩ := Option.isSome_iff_exists.mp h
  have hwhole := isFinite_ofWhole (nearest_le hb)
  rw [roundHalfAway, hb]
  simp only
  split
  · exact isFinite_neg hwhole
  · exact hwhole

theorem isFinite_wholePart {x : Float} (h : isFinite x = true) : isFinite (wholePart x) = true := by
  obtain ⟨b, hb⟩ := Option.isSome_iff_exists.mp h
  rw [wholePart, hb]
  exact isFinite_ofWhole (Nat.le_trans b.floor_le_nearest (nearest_le hb))

end CanvasFlutter.Decimal
