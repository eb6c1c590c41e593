import FlowScript.Proofs.Number.Rounding

/-!
The shortest decimal of a size. Seventeen digits are always enough, since their unit is less than
the distance between the ends of the interval that rounds to the size. Main statement: the shortest
decimal lies in that interval.
-/
namespace FlowScript

namespace Decimal

def value (d : Decimal) : ℚ := d.digits * 10 ^ d.exponent

theorem countDigits_le_iff {n k : Nat} (pos : 0 < k) : countDigits n ≤ k ↔ n < 10 ^ k :=
  Nat.length_toDigits_le_iff (by decide) pos

theorem countDigits_pos (n : Nat) : 0 < countDigits n := Nat.length_toDigits_pos

theorem lt_pow_countDigits (n : Nat) : n < 10 ^ countDigits n :=
  (countDigits_le_iff (countDigits_pos n)).mp (Nat.le_refl _)

theorem pow_countDigits_le {n : Nat} (pos : 0 < n) : 10 ^ (countDigits n - 1) ≤ n := by
  by_cases single : countDigits n = 1
  · rw [single]
    exact pos
  · have more := countDigits_pos n
    by_contra less
    have fewer := (countDigits_le_iff (n := n) (k := countDigits n - 1) (by omega)).mpr (by omega)
    omega

end Decimal

namespace Magnitude

def value (m : Magnitude) : ℚ := m.significand * 2 ^ m.exponent

theorem pow_toNat {k : ℚ} (nonzero : k ≠ 0) (x : Int) : k ^ x.toNat = k ^ x * k ^ (-x).toNat := by
  rw [← zpow_natCast, ← zpow_natCast, ← zpow_add₀ nonzero]
  congr 1
  omega

theorem factors_spec (i : Interval) (power : Int) : ∃ scale : ℚ, 0 < scale ∧
    ((i.factors power).1 : ℚ) = 2 ^ i.exponent * scale ∧
    ((i.factors power).2 : ℚ) = 10 ^ power * scale := by
  have two := pow_toNat (k := 2) (by norm_num) i.exponent
  have ten := pow_toNat (k := 10) (by norm_num) power
  unfold Interval.factors
  simp only [Nat.pow_eq]
  push_cast
  refine ⟨2 ^ (-i.exponent).toNat * 10 ^ (-power).toNat, by positivity, ?_, ?_⟩
  · rw [two]
    ring
  · rw [ten]
    ring

theorem factors_compare (i : Interval) (power : Int) (a c : Nat) :
    (a * (i.factors power).1 ≤ c * (i.factors power).2 ↔
      (a * 2 ^ i.exponent : ℚ) ≤ c * 10 ^ power) ∧
    (c * (i.factors power).2 ≤ a * (i.factors power).1 ↔
      (c * 10 ^ power : ℚ) ≤ a * 2 ^ i.exponent) := by
  obtain ⟨scale, pos, two, ten⟩ := factors_spec i power
  rw [← Nat.cast_le (α := ℚ), ← Nat.cast_le (α := ℚ)]
  push_cast
  rw [two, ten, ← mul_assoc, ← mul_assoc]
  exact ⟨mul_le_mul_iff_left₀ pos, mul_le_mul_iff_left₀ pos⟩

section Interval

variable {m : Magnitude} (some_size : 0 < m.significand)

include some_size

theorem interval_ends :
    (m.interval.lower * 2 ^ m.interval.exponent : ℚ) = (m.significand - m.gap) * 2 ^ m.exponent ∧
    (m.interval.upper * 2 ^ m.interval.exponent : ℚ) =
      (m.significand + 1 / 2) * 2 ^ m.exponent := by
  have quarter : (2 : ℚ) ^ (m.exponent - 2) = 2 ^ m.exponent / 4 := by
    rw [zpow_sub₀ (by norm_num)]
    norm_num
  unfold interval gap
  simp only [quarter, Bool.and_eq_true, beq_iff_eq, decide_eq_true_eq, Nat.pow_eq]
  constructor
  · split
    · push_cast [show 1 ≤ 4 * m.significand by omega]
      ring
    · push_cast [show 2 ≤ 4 * m.significand by omega]
      ring
  · push_cast
    ring

theorem holds_iff (c : Nat) (power : Int) :
    m.interval.holds c power = true ↔ m.Covers (c * 10 ^ power) := by
  obtain ⟨lower, upper⟩ := interval_ends some_size
  obtain ⟨from_low, under_low⟩ := factors_compare m.interval power m.interval.lower c
  obtain ⟨above, below⟩ := factors_compare m.interval power m.interval.upper c
  rw [lower] at from_low under_low
  rw [upper] at above below
  have even : m.interval.closed = true ↔ m.significand % 2 = 0 := beq_iff_eq
  unfold Interval.holds
  simp only
  split
  · rename_i closed
    simp only [Bool.and_eq_true, decide_eq_true_eq, from_low, below]
    exact ⟨fun inside => ⟨inside.1, inside.2, .inl (even.mp closed)⟩,
      fun covered => ⟨covered.low, covered.high⟩⟩
  · rename_i opened
    simp only [Bool.and_eq_true, decide_eq_true_eq, ← Nat.not_le, under_low, above, not_le]
    constructor
    · intro inside
      exact ⟨inside.1.le, inside.2.le, .inr inside⟩
    · intro covered
      exact covered.ends.resolve_left (mt even.mpr opened)

end Interval

theorem nearest?_some {tie : Tie} {i : Interval} {power : Int} {d : Decimal}
    (found : nearest? tie i power = some d) :
    i.holds d.digits d.exponent = true ∧ d.exponent = power := by
  unfold nearest? at found
  simp only at found
  split at found
  · rename_i lower upper
    cases found
    simp only [and_true]
    split <;> assumption
  · cases found
    exact ⟨by assumption, rfl⟩
  · cases found
    exact ⟨by assumption, rfl⟩
  · cases found

theorem nearest?_none {tie : Tie} {i : Interval} {power : Int}
    (none : nearest? tie i power = none) :
    ∃ c : Nat, (c * 10 ^ power : ℚ) ≤ i.middle * 2 ^ i.exponent ∧
      (i.middle * 2 ^ i.exponent : ℚ) ≤ (c + 1 : Nat) * 10 ^ power ∧
      i.holds c power = false ∧ i.holds (c + 1) power = false := by
  have unit : 0 < (i.factors power).2 :=
    Nat.mul_pos (Nat.pow_pos (by decide)) (Nat.pow_pos (by decide))
  unfold nearest? at none
  simp only at none
  generalize counted : i.middle * (i.factors power).1 / (i.factors power).2 = c at none
  refine ⟨c, ?_, ?_, ?_⟩
  · rw [← (factors_compare i power i.middle c).2, ← counted]
    exact Nat.div_mul_le_self _ _
  · rw [← (factors_compare i power i.middle (c + 1)).1, ← counted, Nat.mul_comm (_ + 1)]
    exact (Nat.lt_mul_div_succ _ unit).le
  · split at none <;> simp_all

theorem Covers.of_near {m : Magnitude} {w : ℚ} (below : m.value - m.gap * 2 ^ m.exponent < w)
    (above : w < m.value + 2 ^ m.exponent / 2) : m.Covers w := by
  have low : (m.significand - m.gap) * 2 ^ m.exponent < w := by
    rw [sub_mul]
    exact below
  have high : w < (m.significand + 1 / 2) * 2 ^ m.exponent := by
    rw [add_mul, one_div_mul_eq_div]
    exact above
  exact ⟨low.le, high.le, .inr ⟨low, high⟩⟩

theorem step_of_uncovered {m : Magnitude} {a b : ℚ} (below : a ≤ m.value) (above : m.value ≤ b)
    (out : ¬ m.Covers a) (out' : ¬ m.Covers b) : (m.gap + 1 / 2) * 2 ^ m.exponent ≤ b - a := by
  have unit : (0 : ℚ) < 2 ^ m.exponent := by positivity
  have some_gap := mul_pos m.gap_pos unit
  have lower : a ≤ m.value - m.gap * 2 ^ m.exponent := by
    by_contra near
    exact out (.of_near (not_le.mp near) (by linarith))
  have upper : m.value + 2 ^ m.exponent / 2 ≤ b := by
    by_contra near
    exact out' (.of_near (by linarith) (not_le.mp near))
  linarith

section Size

variable {m : Magnitude} (some_size : 0 < m.significand)

theorem ratio_spec (m : Magnitude) :
    0 < m.ratio.2 ∧ (m.ratio.1 / m.ratio.2 : ℚ) = m.value := by
  unfold ratio value
  split
  · rename_i negative
    rw [zpow_of_neg 2 negative, ← div_eq_mul_inv]
    exact ⟨Nat.pow_pos (by decide), by simp⟩
  · rename_i nonneg
    rw [zpow_of_nonneg 2 nonneg]
    exact ⟨Nat.one_pos, by simp⟩

theorem ratio_den (m : Magnitude) : m.ratio.2 = 2 ^ (-m.exponent).toNat := by
  unfold ratio
  split
  · rfl
  · rw [show (-m.exponent).toNat = 0 by omega]
    rfl

include some_size

theorem ratio_num_pos : 0 < m.ratio.1 := by
  unfold ratio
  split
  · exact some_size
  · exact Nat.mul_pos some_size (Nat.pow_pos (by decide))

theorem pow_topPower_le : (10 : ℚ) ^ m.topPower ≤ m.value := by
  have some_num := ratio_num_pos some_size
  obtain ⟨pos, same⟩ := ratio_spec m
  rw [← same]
  unfold topPower
  simp only
  generalize m.ratio.1 = num at some_num
  generalize m.ratio.2 = den at pos
  have solid : (0 : ℚ) < den := Nat.cast_pos.mpr pos
  rw [le_div_iff₀ solid]
  split
  · rename_i whole
    have digits := Decimal.countDigits_pos (num / den)
    have reached := Nat.mul_le_mul_right den (Decimal.pow_countDigits_le (Nat.div_pos whole pos))
    have power : (10 : ℚ) ^ ((Decimal.countDigits (num / den) : Int) - 1) =
        (10 ^ (Decimal.countDigits (num / den) - 1) : Nat) := by
      rw [← Nat.cast_pred digits, zpow_natCast]
      push_cast
      rfl
    rw [power]
    exact_mod_cast reached.trans (Nat.div_mul_le_self num den)
  · have passed := Decimal.lt_pow_countDigits ((den + num - 1) / num - 1)
    generalize Decimal.countDigits ((den + num - 1) / num - 1) = k at passed
    rw [zpow_neg, zpow_natCast, inv_mul_le_iff₀ (by positivity)]
    have covers : den ≤ (den + num - 1) / num * num := by
      have := Nat.lt_mul_div_succ (den + num - 1) some_num
      grind
    have enough : (den + num - 1) / num ≤ 10 ^ k := by omega
    exact_mod_cast covers.trans (Nat.mul_le_mul_right num enough)

theorem topPower_ge (canonical : Canonical m) : -324 ≤ m.topPower := by
  have some_num := ratio_num_pos some_size
  have small : m.ratio.2 < 10 ^ (54 * 6) := by
    have least : -1074 ≤ m.exponent := canonical.least
    have climb (k : Nat) (places : -m.exponent ≤ k) : 2 ^ (-m.exponent).toNat ≤ 2 ^ k :=
      Nat.pow_le_pow_right (by decide) (by omega)
    have wider : (2 ^ 179) ^ 6 < (10 ^ 54) ^ 6 := Nat.pow_lt_pow_left (by decide) (by decide)
    rw [← pow_mul, ← pow_mul] at wider
    rw [ratio_den]
    exact (climb (179 * 6) (by omega)).trans_lt wider
  unfold topPower
  simp only
  generalize m.ratio.1 = num at some_num
  generalize m.ratio.2 = den at small
  split
  · omega
  · have quotient : (den + num - 1) / num - 1 ≤ den := by
      rw [Nat.sub_le_iff_le_add, Nat.div_le_iff_le_mul_add_pred some_num, Nat.mul_succ]
      have := Nat.le_mul_of_pos_left den some_num
      omega
    have fewer :=
      (Decimal.countDigits_le_iff (k := 54 * 6) (by decide)).mpr (quotient.trans_lt small)
    omega

/-- Seventeen digits are enough. Their unit is at most `10 ^ -16` of the size, hence less than one
    unit of its exponent, and less than half of one at a power of two. -/
theorem nearest?_seventeen (canonical : Canonical m) (tie : Tie) :
    nearest? tie m.interval (m.topPower - 16) ≠ none := by
  intro none
  obtain ⟨c, below, above, out, out'⟩ := nearest?_none none
  rw [← Bool.not_eq_true, holds_iff some_size] at out out'
  have middle : (m.interval.middle * 2 ^ m.interval.exponent : ℚ) = m.value := by
    unfold interval value
    rw [zpow_sub₀ (by norm_num)]
    push_cast
    ring
  rw [middle] at below above
  have wide := step_of_uncovered below above out out'
  have top := pow_topPower_le some_size
  rw [← sub_add_cancel m.topPower 16, zpow_add₀ (by norm_num)] at top
  generalize (10 : ℚ) ^ (m.topPower - 16) = unit at wide top
  have reached : unit * 10 ^ 16 ≤ m.significand * 2 ^ m.exponent := by exact_mod_cast top
  have bound : (m.gap + 1 / 2) * 10 ^ 16 ≤ m.significand := by
    have step : (0 : ℚ) < 2 ^ m.exponent := by positivity
    refine le_of_mul_le_mul_right ?_ step
    push_cast at wide
    linarith
  have small : (m.significand : ℚ) < 2 ^ 53 := by exact_mod_cast canonical.small
  unfold gap at bound
  split at bound
  · rename_i least
    rw [least.1] at bound
    norm_num at bound
  · norm_num at bound small
    linarith

/-- The shortest decimal rounds back to the size. The bound on its exponent keeps its text short. -/
theorem shortest_spec (canonical : Canonical m) (tie : Tie) :
    m.Covers (m.shortest tie).value ∧ -340 ≤ (m.shortest tie).exponent := by
  have least := topPower_ge some_size canonical
  unfold shortest
  simp only
  cases found : (List.range enoughDigits).findSome?
      fun k : Nat => nearest? tie m.interval (m.topPower - k) with
  | none =>
    rw [List.findSome?_eq_none_iff] at found
    exact absurd (found 16 (by decide)) (nearest?_seventeen some_size canonical tie)
  | some d =>
    obtain ⟨k, listed, here⟩ := List.exists_of_findSome?_eq_some found
    obtain ⟨holds, place⟩ := nearest?_some here
    rw [holds_iff some_size] at holds
    have bound : k < 17 := List.mem_range.mp listed
    simp only
    split
    · rename_i even
      have same : (d.digits / 10 : Nat) * (10 : ℚ) ^ (d.exponent + 1) =
          d.digits * 10 ^ d.exponent := by
        rw [zpow_add_one₀ (by norm_num), ← mul_assoc, mul_right_comm]
        congr 1
        exact_mod_cast Nat.div_mul_cancel (Nat.dvd_of_mod_eq_zero even)
      simp only [Decimal.value, same]
      exact ⟨holds, by omega⟩
    · exact ⟨holds, by omega⟩

end Size
end Magnitude
end FlowScript
