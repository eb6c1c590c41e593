import FlowScript.Proofs.Number.ReadBack

/-!
The exact values of finite numbers, and numbers that are integers. Main statements: numbers compare
with zero as their values do, and a number whose value is an integer has no fraction to drop.
-/
namespace FlowScript

namespace Magnitude

theorem value_nonneg (m : Magnitude) : 0 ≤ m.value := by
  unfold value
  positivity

theorem value_eq_zero (m : Magnitude) : m.value = 0 ↔ m.significand = 0 := by
  have unit : (2 : ℚ) ^ m.exponent ≠ 0 := by positivity
  rw [value, mul_eq_zero_iff_right unit, Nat.cast_eq_zero]

theorem covers_value (m : Magnitude) : m.Covers m.value := by
  have unit : (0 : ℚ) < 2 ^ m.exponent := by positivity
  have gap := mul_pos m.gap_pos unit
  exact .of_near (by linarith) (by linarith)

theorem ofRatio_zero : ofRatio 0 1 = ⟨0, leastExponent⟩ := by
  have numerator : (scaled 0 1 leastExponent).1 = 0 := by
    unfold scaled
    split
    · exact Nat.zero_mul _
    · rfl
  simp [ofRatio, numerator, roundDiv]

end Magnitude

namespace Number

def value (x : Float) : ℚ := if isNegative x then -(magnitude x).value else (magnitude x).value

theorem value_eq_zero {x : Float} : value x = 0 ↔ x.toBits.toNat % signBit = 0 := by
  have size : value x = 0 ↔ (magnitude x).significand = 0 := by
    rw [← Magnitude.value_eq_zero, value]
    split
    · exact neg_eq_zero
    · rfl
  rw [size]
  constructor
  · intro none_left
    by_contra some_bit
    exact absurd none_left (Nat.ne_of_gt (Magnitude.significand_ofBits_pos some_bit))
  · intro none_set
    rw [magnitude, none_set]
    rfl

section Finite

variable {x : Float} (finite : x.isFinite = true)

include finite

theorem isZero_iff : (x == 0.0) = true ↔ value x = 0 := by
  rw [value_eq_zero, pattern_eq_zero finite]

theorem zero_lt_iff : 0.0 < x ↔ 0 < value x := by
  have less : 0.0 < x ↔ (0.0 : Float).toModel.unpack.compare x.toModel.unpack = some .lt := by
    change decide (_ == some Ordering.lt) = true ↔ _
    simp
  have nonneg := (magnitude x).value_nonneg
  obtain ⟨s, side, shape⟩ := unpack_of_bits finite
  rw [less, unpack_zero]
  split at shape
  · rename_i none_set
    rw [shape, value_eq_zero.mpr none_set]
    simp [Float.Model.UnpackedFloat.compare]
  · rename_i some_bit
    obtain ⟨m, e, pos, same⟩ := shape
    have other : value x ≠ 0 := value_eq_zero.not.mpr some_bit
    rw [same, value] at *
    cases s with
    | positive =>
      rw [side.mp rfl] at other ⊢
      simp only [Float.Model.UnpackedFloat.compare, true_iff]
      exact lt_of_le_of_ne nonneg (Ne.symm other)
    | negative =>
      have negative : isNegative x = true := by
        rw [← Bool.not_eq_false, ← side]
        simp
      rw [negative]
      simp [Float.Model.UnpackedFloat.compare, nonneg]

end Finite

section Integers

variable {x : Float} {k : Int}

theorem size_eq_natAbs (exact : value x = k) : (magnitude x).value = k.natAbs := by
  have nonneg := (magnitude x).value_nonneg
  rw [Nat.cast_natAbs, Int.cast_abs, ← exact, value]
  split
  · rw [abs_neg, abs_of_nonneg nonneg]
  · rw [abs_of_nonneg nonneg]

theorem whole_eq_natAbs (exact : value x = k) : whole x = k.natAbs := by
  obtain ⟨pos, same⟩ := (magnitude x).ratio_spec
  have solid : ((magnitude x).ratio.2 : ℚ) ≠ 0 := Nat.cast_ne_zero.mpr (Nat.ne_of_gt pos)
  rw [size_eq_natAbs exact, div_eq_iff solid] at same
  have multiple : (magnitude x).ratio.1 = k.natAbs * (magnitude x).ratio.2 := by
    exact_mod_cast same
  change (magnitude x).ratio.1 / (magnitude x).ratio.2 = k.natAbs
  rw [multiple, Nat.mul_div_cancel _ pos]

theorem truncate_of_integer (finite : x.isFinite = true) (exact : value x = k) :
    truncate x = x := by
  rw [truncate, if_pos finite, whole_eq_natAbs exact]
  apply ofMagnitude_isNegative finite
  by_cases none_left : k = 0
  · have none_set : x.toBits.toNat % signBit = 0 := by
      rw [← value_eq_zero, exact, none_left, Int.cast_zero]
    rw [none_left, Int.natAbs_zero, Magnitude.ofRatio_zero, magnitude, none_set]
    rfl
  · have some_bit : x.toBits.toNat % signBit ≠ 0 := by
      rw [Ne, ← value_eq_zero, exact, Int.cast_eq_zero]
      exact none_left
    have covered : (magnitude x).Covers ((k.natAbs : ℚ) / (1 : Nat)) := by
      rw [Nat.cast_one, div_one, ← size_eq_natAbs exact]
      exact (magnitude x).covers_value
    exact Magnitude.toBits_ofRatio (Magnitude.canonical_ofBits (pattern_lt finite))
      (Magnitude.significand_ofBits_pos some_bit) Nat.one_pos covered

end Integers
end Number
end FlowScript
