import FlowScript.Number.Magnitude
import Mathlib.Algebra.Group.Nat.Defs

/-!
Numbers and their bit patterns: a sign, eleven bits of exponent and 52 bits of mantissa. Main
statement: the bits of a finite number other than the sign say whether it is zero.
-/
namespace FlowScript.Number

open Float.Model UnpackedFloat

section Parts

variable (b : BitVec Format.binary64.numBits)

theorem mantissa_toNat : (unpackMantissa b).toNat = b.toNat % 2 ^ 52 := by
  simp [unpackMantissa, BitVec.extractLsb, Format.binary64]

theorem exponent_toNat : (unpackExponent b).toNat = b.toNat / 2 ^ 52 % 2 ^ 11 := by
  simp [unpackExponent, BitVec.extractLsb, Format.binary64, Nat.shiftRight_eq_div_pow]

theorem sign_toNat : (unpackSign b).toNat = b.toNat / 2 ^ 63 % 2 := by
  have place : unpackSign b = b.extractLsb 63 63 := rfl
  rw [place, BitVec.extractLsb_toNat, Nat.shiftRight_eq_div_pow]

theorem pattern_eq :
    b.toNat % signBit = 2 ^ 52 * (unpackExponent b).toNat + (unpackMantissa b).toNat := by
  have place : signBit = 2 ^ 63 := rfl
  rw [mantissa_toNat, exponent_toNat, place]
  omega

theorem positive_iff : Sign.ofBitVec (unpackSign b) = .positive ↔ b.toNat < signBit := by
  have place : signBit = 2 ^ 63 := rfl
  have bound : b.toNat < 2 ^ 64 := b.isLt
  have single : unpackSign b = 0#1 ↔ (unpackSign b).toNat = 0 := by simp [← BitVec.toNat_inj]
  rw [Sign.ofBitVec, apply_ite (· = Sign.positive)]
  simp only [reduceCtorEq, single, sign_toNat, place]
  grind

theorem unpack_finite (finite : (UnpackedFloat.unpack .binary64 b).isFinite = true) :
    (unpackExponent b).toNat < 2047 ∧
    if b.toNat % signBit = 0 then
      UnpackedFloat.unpack .binary64 b = .zero (.ofBitVec (unpackSign b))
    else ∃ m e pos,
      UnpackedFloat.unpack .binary64 b = .finite (.ofBitVec (unpackSign b)) m e pos := by
  have exponent : (unpackExponent b).toNat < 2 ^ 11 := (unpackExponent b).isLt
  have pattern := pattern_eq b
  unfold UnpackedFloat.unpack at finite ⊢
  dsimp only at finite ⊢
  have notTop : unpackExponent b ≠ -1#11 := by
    intro top
    rw [if_pos top] at finite
    by_cases none_set : unpackMantissa b = 0#52
    · rw [if_pos none_set] at finite
      exact absurd finite Bool.false_ne_true
    · rw [if_neg none_set] at finite
      exact absurd finite Bool.false_ne_true
  have below : (unpackExponent b).toNat ≠ 2047 := by
    simpa [← BitVec.toNat_inj, Format.binary64] using notTop
  refine ⟨by omega, ?_⟩
  rw [if_neg notTop]
  by_cases least : unpackExponent b = 0#11
  · have low : (unpackExponent b).toNat = 0 := by rw [least]; rfl
    rw [if_pos least]
    by_cases none_set : unpackMantissa b = 0#52
    · have none_left : (unpackMantissa b).toNat = 0 := by rw [none_set]; rfl
      rw [if_pos (by omega), dif_pos none_set]
    · have some_left : (unpackMantissa b).toNat ≠ 0 := by simpa [← BitVec.toNat_inj] using none_set
      rw [if_neg (by omega), dif_neg none_set]
      exact ⟨_, _, Nat.pos_of_ne_zero some_left, rfl⟩
  · have high : (unpackExponent b).toNat ≠ 0 := by simpa [← BitVec.toNat_inj] using least
    have leading : 0 < (1#1 ++ unpackMantissa b).toNat := by
      rw [BitVec.toNat_append]
      exact Nat.lt_of_lt_of_le (by decide) Nat.left_le_or
    rw [if_neg (by omega), if_neg least]
    exact ⟨_, _, leading, rfl⟩

end Parts

section Finite

variable {x : Float} (finite : x.isFinite = true)

def bits (x : Float) : BitVec Format.binary64.numBits := x.toBits.toBitVec

include finite

theorem isNaN_of_isFinite : x.isNaN = false := by
  change x.toModel.unpack.isFinite = true at finite
  change x.toModel.unpack.isNaN = false
  cases shape : x.toModel.unpack with
  | notANumber =>
    rw [shape] at finite
    exact absurd finite Bool.false_ne_true
  | _ => rfl

theorem isInf_of_isFinite : x.isInf = false := by
  change x.toModel.unpack.isFinite = true at finite
  change x.toModel.unpack.isInf = false
  cases shape : x.toModel.unpack with
  | infinity s =>
    rw [shape] at finite
    exact absurd finite Bool.false_ne_true
  | _ => rfl

theorem pattern_lt : x.toBits.toNat % signBit < Magnitude.infinityBits := by
  have below : (unpackExponent (bits x)).toNat < 2047 := (unpack_finite _ finite).1
  have mantissa : (unpackMantissa (bits x)).toNat < 2 ^ 52 := (unpackMantissa (bits x)).isLt
  have pattern : x.toBits.toNat % signBit = _ := pattern_eq (bits x)
  have top : Magnitude.infinityBits = 2047 * 2 ^ 52 := rfl
  omega

/-- The sign of a finite number is in one bit, and the other bits say whether it is zero. -/
theorem unpack_of_bits : ∃ s : Sign, (s = .positive ↔ isNegative x = false) ∧
    if x.toBits.toNat % signBit = 0 then x.toModel.unpack = .zero s
    else ∃ m e pos, x.toModel.unpack = .finite s m e pos := by
  have side : isNegative x = false ↔ (bits x).toNat < signBit := by
    rw [isNegative, decide_eq_false_iff_not, Nat.not_le]
    rfl
  exact ⟨.ofBitVec (unpackSign (bits x)), (positive_iff _).trans side.symm,
    (unpack_finite _ finite).2⟩

omit finite in
theorem unpack_zero : (0.0 : Float).toModel.unpack = .zero .positive := by rfl

theorem pattern_eq_zero : x.toBits.toNat % signBit = 0 ↔ (x == 0.0) = true := by
  change _ ↔ (x.toModel.unpack.compare (0.0 : Float).toModel.unpack == some .eq) = true
  obtain ⟨s, -, shape⟩ := unpack_of_bits finite
  rw [unpack_zero]
  by_cases none_set : x.toBits.toNat % signBit = 0
  · rw [if_pos none_set] at shape
    rw [shape]
    exact iff_of_true none_set rfl
  · rw [if_neg none_set] at shape
    obtain ⟨m, e, pos, same⟩ := shape
    rw [same]
    refine iff_of_false none_set ?_
    cases s <;> exact Bool.false_ne_true

theorem isNegative_of_positive (some_bit : x.toBits.toNat % signBit ≠ 0) (bound : 0.0 ≤ x) :
    isNegative x = false := by
  change decide (((0.0 : Float).toModel.unpack.compare x.toModel.unpack).any (·.isLE) = true) = true
    at bound
  obtain ⟨s, side, shape⟩ := unpack_of_bits finite
  rw [if_neg some_bit] at shape
  obtain ⟨m, e, pos, same⟩ := shape
  rw [unpack_zero, same] at bound
  cases s with
  | positive => exact side.mp rfl
  | negative => exact absurd bound Bool.false_ne_true

end Finite
end FlowScript.Number
