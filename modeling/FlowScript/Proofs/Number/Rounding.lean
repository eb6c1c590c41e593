import FlowScript.Number.Shortest
import Mathlib.Algebra.Order.Field.Power
import Mathlib.Data.Rat.Cast.Order
import Mathlib.Tactic.Linarith
import Mathlib.Tactic.Positivity
import Mathlib.Tactic.Ring

/-!
Rounding a ratio to a size. The reals that round to a size are those up to half a unit away from it,
but below a power of two only up to a quarter. Main statement: a ratio among them is rounded to the
bits of the size.
-/
namespace FlowScript.Magnitude

/-- The form in which every size has a single significand and exponent. -/
structure Canonical (m : Magnitude) : Prop where
  least : leastExponent ≤ m.exponent
  most : m.exponent ≤ 971
  small : m.significand < 2 ^ 53
  full : leastExponent < m.exponent → 2 ^ 52 ≤ m.significand

variable {b : Nat}

theorem pow_fiftyTwo : Nat.pow 2 52 = 2 ^ 52 := rfl

theorem infinityBits_eq : infinityBits = 2047 * 2 ^ 52 := rfl

theorem canonical_ofBits (finite : b < infinityBits) : Canonical (ofBits b) := by
  have bound : b / 2 ^ 52 < 2047 := Nat.div_lt_of_lt_mul (by rw [Nat.mul_comm]; exact finite)
  have rest : b % 2 ^ 52 < 2 ^ 52 := Nat.mod_lt _ (by decide)
  unfold ofBits
  simp only [pow_fiftyTwo]
  split
  · constructor <;> simp only [leastExponent] <;> omega
  · constructor <;> simp only [leastExponent] <;> omega

theorem toBits_ofBits (finite : b < infinityBits) : (ofBits b).toBits = b := by
  unfold ofBits toBits
  rw [infinityBits_eq] at finite ⊢
  simp only [pow_fiftyTwo, leastExponent]
  split <;> simp only <;> omega

theorem significand_ofBits_pos (some_bit : b ≠ 0) : 0 < (ofBits b).significand := by
  unfold ofBits
  simp only [pow_fiftyTwo]
  split <;> simp only <;> omega

theorem two_zpow_add (e : Int) (k : Nat) : (2 : ℚ) ^ (e + k) = 2 ^ k * 2 ^ e := by
  rw [zpow_add₀ (by norm_num), zpow_natCast, mul_comm]

theorem two_zpow_le {a b : Int} (le : a ≤ b) : (2 : ℚ) ^ a ≤ 2 ^ b :=
  zpow_le_zpow_right₀ (by norm_num) le

theorem zpow_of_nonneg (k : ℚ) {e : Int} (nonneg : ¬ e < 0) : k ^ e = k ^ e.toNat := by
  rw [← zpow_natCast, Int.toNat_of_nonneg (by omega)]

theorem zpow_of_neg (k : ℚ) {e : Int} (negative : e < 0) : k ^ e = (k ^ (-e).toNat)⁻¹ := by
  rw [← zpow_natCast, ← zpow_neg, Int.toNat_of_nonneg (by omega), neg_neg]

theorem scaled_spec (num : Nat) {den : Nat} (pos : 0 < den) (e : Int) :
    0 < (scaled num den e).2 ∧
    ((scaled num den e).1 : ℚ) / (scaled num den e).2 = num / den / 2 ^ e := by
  unfold scaled
  split
  · rename_i negative
    rw [zpow_of_neg 2 negative, div_inv_eq_mul, div_mul_eq_mul_div]
    exact ⟨pos, by simp⟩
  · rename_i nonneg
    rw [zpow_of_nonneg 2 nonneg, div_div]
    exact ⟨Nat.mul_pos pos (Nat.pow_pos (by decide)), by simp⟩

theorem log2_bounds {num den : Nat} (some_size : 0 < num) (pos : 0 < den) :
    (2 : ℚ) ^ ((num.log2 : Int) - den.log2 - 1) < num / den ∧
    (num / den : ℚ) < 2 ^ ((num.log2 : Int) - den.log2 + 1) := by
  have num_low : ((2 ^ num.log2 : Nat) : ℚ) ≤ num :=
    Nat.cast_le.mpr (Nat.log2_self_le (Nat.ne_of_gt some_size))
  have num_high : (num : ℚ) < (2 ^ (num.log2 + 1) : Nat) := Nat.cast_lt.mpr Nat.lt_log2_self
  have den_low : ((2 ^ den.log2 : Nat) : ℚ) ≤ den :=
    Nat.cast_le.mpr (Nat.log2_self_le (Nat.ne_of_gt pos))
  have den_high : (den : ℚ) < (2 ^ (den.log2 + 1) : Nat) := Nat.cast_lt.mpr Nat.lt_log2_self
  have solid : (0 : ℚ) < den := Nat.cast_pos.mpr pos
  push_cast at num_low num_high den_low den_high
  constructor
  · rw [lt_div_iff₀ solid]
    calc (2 : ℚ) ^ ((num.log2 : Int) - den.log2 - 1) * den
        < 2 ^ ((num.log2 : Int) - den.log2 - 1) * 2 ^ (den.log2 + 1) := by gcongr
      _ = 2 ^ num.log2 := by
        rw [mul_comm, ← two_zpow_add, ← zpow_natCast]
        congr 1
        omega
      _ ≤ num := num_low
  · rw [div_lt_iff₀ solid]
    calc (num : ℚ) < 2 ^ (num.log2 + 1) := num_high
      _ = 2 ^ ((num.log2 : Int) - den.log2 + 1) * 2 ^ den.log2 := by
        rw [mul_comm, ← two_zpow_add, ← zpow_natCast]
        congr 1
        omega
      _ ≤ 2 ^ ((num.log2 : Int) - den.log2 + 1) * den := by gcongr

theorem exponentOf_spec {num den : Nat} (some_size : 0 < num) (pos : 0 < den) :
    leastExponent ≤ exponentOf num den ∧ (num / den : ℚ) < 2 ^ (exponentOf num den + 53) ∧
    (leastExponent < exponentOf num den → (2 : ℚ) ^ (exponentOf num den + 52) ≤ num / den) := by
  obtain ⟨low, high⟩ := log2_bounds some_size pos
  unfold exponentOf
  simp only
  generalize guessed : (num.log2 : Int) - den.log2 - 52 = guess
  obtain ⟨solid, ratio⟩ := scaled_spec num pos guess
  have test : (scaled num den guess).1 / (scaled num den guess).2 < Nat.pow 2 52 ↔
      (num / den : ℚ) < 2 ^ (guess + (52 : Nat)) := by
    rw [Nat.div_lt_iff_lt_mul solid, ← Nat.cast_lt (α := ℚ), Nat.cast_mul,
      ← div_lt_iff₀ (Nat.cast_pos.mpr solid), ratio, div_lt_iff₀ (by positivity), two_zpow_add]
    rfl
  split
  · rename_i fewer
    refine ⟨le_max_left .., (test.mp fewer).trans_le (two_zpow_le (by omega)), ?_⟩
    intro more
    rw [max_eq_right (by omega)]
    exact (two_zpow_le (by omega)).trans low.le
  · rename_i enough
    refine ⟨le_max_left .., high.trans_le (two_zpow_le (by omega)), ?_⟩
    intro more
    rw [max_eq_right (by omega)]
    exact not_lt.mp (mt test.mpr enough)

theorem roundDiv_eq {num den n : Nat} (pos : 0 < den)
    (near : (n - 1 / 2 : ℚ) ≤ num / den ∧ (num / den : ℚ) ≤ n + 1 / 2)
    (tie : n % 2 = 0 ∨ (n - 1 / 2 : ℚ) < num / den ∧ (num / den : ℚ) < n + 1 / 2) :
    roundDiv num den = n := by
  have solid : (0 : ℚ) < den := Nat.cast_pos.mpr pos
  rw [le_div_iff₀ solid, div_le_iff₀ solid] at near
  rw [lt_div_iff₀ solid, div_lt_iff₀ solid] at tie
  have near' : 2 * (den * n) ≤ 2 * num + den ∧ 2 * num ≤ 2 * (den * n) + den := by
    constructor <;> · rw [← Nat.cast_le (α := ℚ)]; push_cast; linarith
  have tie' : n % 2 = 0 ∨ 2 * (den * n) < 2 * num + den ∧ 2 * num < 2 * (den * n) + den := by
    refine tie.imp_right fun strict => ?_
    constructor <;> · rw [← Nat.cast_lt (α := ℚ)]; push_cast; linarith
  have split := Nat.div_add_mod num den
  have rest : num % den < den := Nat.mod_lt _ pos
  have low : num / den ≤ n := by
    by_contra more
    have next : den * (n + 1) ≤ den * (num / den) := Nat.mul_le_mul_left den (by omega)
    rw [Nat.mul_succ] at next
    omega
  have high : n ≤ num / den + 1 := by
    by_contra more
    have next : den * (num / den + 2) ≤ den * n := Nat.mul_le_mul_left den (by omega)
    rw [Nat.mul_add] at next
    omega
  unfold roundDiv
  simp only
  obtain same | next : n = num / den ∨ n = num / den + 1 := by omega
  · subst same
    rw [if_neg (by omega)]
  · subst next
    rw [Nat.mul_succ] at near' tie'
    rw [if_pos (by omega)]

/-- How far below a size the reals begin that round to it, in units of its exponent. Below a power
    of two the neighbours are twice as dense. -/
def gap (m : Magnitude) : ℚ :=
  if m.significand = 2 ^ 52 ∧ leastExponent < m.exponent then 1 / 4 else 1 / 2

theorem gap_pos (m : Magnitude) : 0 < m.gap := by
  unfold gap
  split <;> norm_num

theorem gap_le (m : Magnitude) : m.gap ≤ 1 / 2 := by
  unfold gap
  split <;> norm_num

/-- The reals that round to a size. The ends of the interval do so if its significand is even. -/
structure Covers (m : Magnitude) (v : ℚ) : Prop where
  low : (m.significand - m.gap) * 2 ^ m.exponent ≤ v
  high : v ≤ (m.significand + 1 / 2) * 2 ^ m.exponent
  ends : m.significand % 2 = 0 ∨
    (m.significand - m.gap) * 2 ^ m.exponent < v ∧ v < (m.significand + 1 / 2) * 2 ^ m.exponent

section Rounding

variable {m : Magnitude} (canonical : Canonical m) (some_size : 0 < m.significand)
  {num den : Nat} (pos : 0 < den) (covered : m.Covers (num / den))

include some_size covered in
theorem num_pos_of_covers : 0 < num := by
  have low := covered.low
  have gap := m.gap_le
  have unit : (0 : ℚ) < 2 ^ m.exponent := by positivity
  have one : (1 : ℚ) ≤ m.significand := by exact_mod_cast some_size
  by_contra none_left
  obtain rfl : num = 0 := by omega
  have positive : 0 < (m.significand - m.gap) * 2 ^ m.exponent := mul_pos (by linarith) unit
  simp at low
  linarith

include canonical some_size pos covered

/-- The exponent found for a covered ratio is that of the size, or the one before if the ratio lies
    below a power of two that it rounds to. -/
theorem exponentOf_covered :
    exponentOf num den = m.exponent ∨
    exponentOf num den = m.exponent - 1 ∧ m.significand = 2 ^ 52 ∧ leastExponent < m.exponent := by
  obtain ⟨least, under, filled⟩ := exponentOf_spec (num_pos_of_covers some_size covered) pos
  generalize exponentOf num den = e at least under filled
  have unit : (0 : ℚ) < 2 ^ m.exponent := by positivity
  have small : (m.significand : ℚ) + 1 ≤ 2 ^ 53 := by exact_mod_cast canonical.small
  have high := covered.high
  have low := covered.low
  have not_above : e ≤ m.exponent := by
    by_contra above
    have reached := (two_zpow_le (a := m.exponent + (53 : Nat)) (by omega)).trans
      (filled (lt_of_le_of_lt canonical.least (by omega)))
    rw [two_zpow_add] at reached
    have := le_of_mul_le_mul_right (reached.trans high) unit
    linarith
  obtain same | below : e = m.exponent ∨ e < m.exponent := by omega
  · exact .inl same
  right
  have inner : leastExponent < m.exponent := by omega
  have full : (2 : ℚ) ^ 52 ≤ m.significand := by exact_mod_cast canonical.full inner
  have gap := m.gap_le
  have short : (m.significand - m.gap) < (2 : ℚ) ^ 52 := by
    have reached := under.trans_le (two_zpow_le (b := m.exponent + (52 : Nat)) (by omega))
    rw [two_zpow_add] at reached
    exact lt_of_mul_lt_mul_right (low.trans_lt reached) unit.le
  have least_full : m.significand = 2 ^ 52 := by
    have upper : (m.significand : ℚ) < (2 ^ 52 + 1 : Nat) := by push_cast; linarith
    have := Nat.cast_lt.mp upper
    have := canonical.full inner
    omega
  refine ⟨?_, least_full, inner⟩
  by_contra apart
  have reached := under.trans_le (two_zpow_le (b := m.exponent + (51 : Nat)) (by omega))
  rw [two_zpow_add] at reached
  have := lt_of_mul_lt_mul_right (low.trans_lt reached) unit.le
  linarith

theorem toBits_ofRatio : (ofRatio num den).toBits = m.toBits := by
  have place := exponentOf_covered canonical some_size pos covered
  have some_num := num_pos_of_covers some_size covered
  obtain ⟨solid, ratio⟩ := scaled_spec num pos (exponentOf num den)
  have unit : (0 : ℚ) < 2 ^ m.exponent := by positivity
  have gap := m.gap_le
  obtain ⟨low, high, ends⟩ := covered
  rw [← le_div_iff₀ unit] at low
  rw [← div_le_iff₀ unit] at high
  rw [← lt_div_iff₀ unit, ← div_lt_iff₀ unit] at ends
  unfold ofRatio
  simp only [Nat.ne_of_gt some_num, ↓reduceIte]
  rcases place with same | ⟨less, least_full, inner⟩
  · rw [same] at ratio solid ⊢
    rw [roundDiv_eq (n := m.significand) solid]
    · rw [ratio]
      exact ⟨by linarith, high⟩
    · rw [ratio]
      exact ends.imp_right fun strict => ⟨by linarith, strict.2⟩
  · -- The significand comes out as `2 ^ 53`, which carries into the exponent.
    have halved : (2 : ℚ) ^ (m.exponent - 1) = 2 ^ m.exponent / 2 := by
      rw [zpow_sub_one₀ (by norm_num), div_eq_mul_inv]
    have under := (exponentOf_spec some_num pos).2.1
    have quarter : m.gap = 1 / 4 := if_pos ⟨least_full, inner⟩
    rw [less, show m.exponent - 1 + 53 = m.exponent + (52 : Nat) by omega, two_zpow_add,
      ← div_lt_iff₀ unit] at under
    rw [less] at ratio solid ⊢
    rw [halved, div_div_eq_mul_div, mul_div_right_comm, mul_comm] at ratio
    rw [quarter, least_full] at low
    push_cast at low
    rw [roundDiv_eq (n := 2 ^ 53) solid]
    · have := canonical.most
      simp only [toBits, pow_fiftyTwo, least_full, leastExponent, infinityBits_eq] at inner ⊢
      omega
    · rw [ratio]
      push_cast
      exact ⟨by linarith, by linarith⟩
    · exact .inl (by norm_num)

end Rounding

end FlowScript.Magnitude
