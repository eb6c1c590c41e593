import FlowScript.Number.Layout
import FlowScript.Proofs.Number.Bits
import FlowScript.Proofs.Number.Shortest
import Mathlib

/-!
Numbers are read back from their texts. The text of a number without sign is a plain numeral, with
no exponent, and the decimal it spells lies in the interval that rounds to the number.
-/
namespace FlowScript

theorem span_of_stop {p : Char → Bool} {l r : List Char} (run : ∀ c ∈ l, p c = true)
    (stop : ∀ c ∈ r.head?, p c = false) :
    (l ++ r).takeWhile p = l ∧ (l ++ r).dropWhile p = r := by
  rw [List.takeWhile_append_of_pos run, List.dropWhile_append_of_pos run]
  cases r with
  | nil => simp
  | cons c more => simp [stop c rfl]

namespace Magnitude

section Reading

variable {m : Magnitude} (canonical : Canonical m) (some_size : 0 < m.significand) {d : Decimal}
  (covered : m.Covers d.value)

include canonical some_size covered

-- Powers of this size are not computed; their fifth roots are, and compared.
theorem covered_bounds :
    (10 : ℚ) ^ (-65 * (5 : Nat) : Int) < d.value ∧ d.value < 10 ^ (62 * (5 : Nat) : Int) := by
  have least : -1074 ≤ m.exponent := canonical.least
  have most := canonical.most
  have unit : (0 : ℚ) < 2 ^ m.exponent := by positivity
  have fifth {a b : ℚ} (nonneg : 0 ≤ a) (less : a < b) : a ^ 5 < b ^ 5 :=
    pow_lt_pow_left₀ less nonneg (by decide)
  constructor
  · have tiny : (10 : ℚ) ^ (-65 : Int) < 2 ^ (-215 : Int) := by norm_num
    have tinier := fifth (by positivity) tiny
    rw [← zpow_natCast, ← zpow_natCast, ← zpow_mul, ← zpow_mul] at tinier
    have one : (1 : ℚ) ≤ m.significand := by exact_mod_cast some_size
    have gap := m.gap_le
    calc (10 : ℚ) ^ (-65 * (5 : Nat) : Int)
        < 2 ^ (-215 * (5 : Nat) : Int) := tinier
      _ ≤ 2 ^ (m.exponent - 1) := two_zpow_le (by omega)
      _ = 1 / 2 * 2 ^ m.exponent := by
        rw [zpow_sub_one₀ (by norm_num)]
        ring
      _ ≤ (m.significand - m.gap) * 2 ^ m.exponent := by
        gcongr
        linarith
      _ ≤ d.value := covered.low
  · have large : (2 : ℚ) ^ (205 : Int) < 10 ^ (62 : Int) := by norm_num
    have larger := fifth (by positivity) large
    rw [← zpow_natCast, ← zpow_natCast, ← zpow_mul, ← zpow_mul] at larger
    have small : (m.significand : ℚ) + 1 ≤ 2 ^ 53 := by exact_mod_cast canonical.small
    calc d.value ≤ (m.significand + 1 / 2) * 2 ^ m.exponent := covered.high
      _ ≤ 2 ^ 53 * 2 ^ m.exponent := by
        gcongr
        linarith
      _ = 2 ^ (m.exponent + (53 : Nat)) := (two_zpow_add _ _).symm
      _ ≤ 2 ^ (205 * (5 : Nat) : Int) := two_zpow_le (by omega)
      _ < 10 ^ (62 * (5 : Nat) : Int) := larger

theorem top_bounds : 0 < d.digits ∧ -325 < d.exponent + Decimal.countDigits d.digits ∧
    d.exponent + Decimal.countDigits d.digits ≤ 310 := by
  obtain ⟨low, high⟩ := covered_bounds canonical some_size covered
  have power (a b : Int) : (10 : ℚ) ^ a < 10 ^ b ↔ a < b := zpow_lt_zpow_iff_right₀ (by norm_num)
  have pos : 0 < d.digits := by
    by_contra none_left
    have zero : d.value = 0 := by
      rw [Decimal.value, Nat.eq_zero_of_not_pos none_left]
      simp
    rw [zero] at low
    exact lt_asymm low (by positivity)
  have under : d.value < 10 ^ (d.exponent + Decimal.countDigits d.digits) := by
    rw [Decimal.value, zpow_add₀ (by norm_num), mul_comm, zpow_natCast]
    gcongr
    exact_mod_cast Decimal.lt_pow_countDigits d.digits
  have at_least : (10 : ℚ) ^ (d.exponent + (Decimal.countDigits d.digits - 1 : Nat)) ≤ d.value := by
    rw [Decimal.value, zpow_add₀ (by norm_num), mul_comm, zpow_natCast]
    gcongr
    exact_mod_cast Decimal.pow_countDigits_le pos
  have digits := Decimal.countDigits_pos d.digits
  have low' := (power _ _).mp (low.trans under)
  have high' := (power _ _).mp (at_least.trans_lt high)
  omega

theorem toBits_toMagnitude : d.toMagnitude.toBits = m.toBits := by
  obtain ⟨pos, low, high⟩ := top_bounds canonical some_size covered
  have least : Decimal.tooSmall = -326 := rfl
  have most : Decimal.tooLarge = 310 := rfl
  unfold Decimal.toMagnitude
  simp only
  rw [if_neg (by omega), if_neg (by omega)]
  unfold Decimal.value at covered
  split
  · rename_i negative
    rw [zpow_of_neg 10 negative, ← div_eq_mul_inv] at covered
    exact toBits_ofRatio canonical some_size (Nat.pow_pos (by decide)) (by simpa using covered)
  · rename_i nonneg
    rw [zpow_of_nonneg 10 nonneg] at covered
    exact toBits_ofRatio canonical some_size (by decide) (by simpa using covered)

end Reading
end Magnitude

namespace Decimal

theorem digitsValue_eq (cs : List Char) : digitsValue cs = Nat.ofDigitChars 10 cs 0 := rfl

theorem digitsValue_dropZeros (cs : List Char) :
    digitsValue (cs.dropWhile (· == '0')) = digitsValue cs := by
  induction cs with
  | nil => rfl
  | cons c rest ih =>
    rw [List.dropWhile_cons]
    split
    · rename_i zero
      rw [ih, eq_of_beq zero]
      rfl
    · rfl

theorem ofDigits_eq {cs : List Char} (short : cs.length ≤ significantDigits) (e : Int) :
    ofDigits cs e = ⟨digitsValue cs, e⟩ := by
  have shorter : (cs.dropWhile (· == '0')).length ≤ significantDigits :=
    (List.dropWhile_sublist _).length_le.trans short
  unfold ofDigits
  simp [List.take_of_length_le shorter, List.drop_of_length_le shorter, digitsValue_dropZeros]

/-- A numeral without sign and exponent. A point stands only before digits. -/
structure Plain (text whole fraction : List Char) : Prop where
  spelled : text = whole ++ if fraction = [] then [] else '.' :: fraction
  solid : whole ≠ []
  digits : ∀ c ∈ whole ++ fraction, c.isDigit = true

theorem Plain.first {text whole fraction : List Char} (plain : Plain text whole fraction) :
    ∃ c cs, text = c :: cs ∧ c.isDigit = true := by
  obtain ⟨rfl, solid, digits⟩ := plain
  cases whole with
  | nil => exact absurd rfl solid
  | cons c rest => exact ⟨c, _, List.cons_append, digits c (by simp)⟩

theorem Plain.digit_or_point {text whole fraction : List Char} (plain : Plain text whole fraction)
    {c : Char} (inside : c ∈ text) : c.isDigit = true ∨ c = '.' := by
  obtain ⟨rfl, solid, digits⟩ := plain
  obtain ⟨whole_digits, fraction_digits⟩ := List.forall_mem_append.mp digits
  rcases List.mem_append.mp inside with before | after
  · exact .inl (whole_digits c before)
  · split at after
    · cases after
    · rcases List.mem_cons.mp after with point | later
      · exact .inr point
      · exact .inl (fraction_digits c later)

theorem Plain.read? {text whole fraction : List Char} (plain : Plain text whole fraction) :
    read? text = some (ofDigits (whole ++ fraction) (-fraction.length)) := by
  obtain ⟨rfl, solid, digits⟩ := plain
  obtain ⟨whole_digits, fraction_digits⟩ := List.forall_mem_append.mp digits
  unfold Decimal.read?
  by_cases none_after : fraction = []
  · obtain ⟨before, after⟩ := span_of_stop (r := []) whole_digits (by simp)
    rw [if_pos none_after, before, after]
    simp [none_after, solid, readExponent?]
  · obtain ⟨before, after⟩ :=
      span_of_stop (r := '.' :: fraction) whole_digits (by simp [Char.isDigit])
    obtain ⟨before', after'⟩ := span_of_stop (r := []) fraction_digits (by simp)
    rw [List.append_nil] at before' after'
    rw [if_neg none_after, before, after]
    simp [before', after', solid, readExponent?]

theorem zeros_digits (n : Nat) : ∀ c ∈ zeros n, c.isDigit = true := by
  intro c inside
  rw [List.eq_of_mem_replicate inside]
  rfl

theorem positional_plain (d : Decimal) : ∃ whole fraction, Plain d.positional whole fraction ∧
    value ⟨digitsValue (whole ++ fraction), -fraction.length⟩ = d.value ∧
    (whole ++ fraction).length ≤ max (countDigits d.digits + d.exponent.toNat)
      (1 + (-d.exponent).toNat) := by
  have digits : ∀ c ∈ d.digitChars, c.isDigit = true :=
    fun _ inside => Nat.isDigit_of_mem_toDigits (by decide) (by decide) inside
  have length : d.digitChars.length = countDigits d.digits := rfl
  have solid := countDigits_pos d.digits
  have same : digitsValue d.digitChars = d.digits := Nat.ofDigitChars_ten_toDigits
  unfold positional
  simp only
  split
  · rename_i nonneg
    refine ⟨d.digitChars ++ zeros d.exponent.toNat, [], ⟨by simp, by simp [digitChars], ?_⟩, ?_, ?_⟩
    · rw [List.append_nil]
      exact List.forall_mem_append.mpr ⟨digits, zeros_digits _⟩
    · rw [List.append_nil, digitsValue_eq, Nat.ofDigitChars_append, zeros,
        Nat.ofDigitChars_replicate_zero, ← digitsValue_eq, same, value, value,
        Magnitude.zpow_of_nonneg 10 (not_lt.mpr nonneg)]
      simp [mul_comm]
    · simp [zeros, length]
  rename_i negative
  have places : -((-d.exponent).toNat : Int) = d.exponent := by omega
  generalize (-d.exponent).toNat = k at *
  split
  · rename_i inner
    refine ⟨d.digitChars.take (d.digitChars.length - k),
      d.digitChars.drop (d.digitChars.length - k), ⟨?_, ?_, ?_⟩, ?_, ?_⟩
    · rw [if_neg]
      simp
      omega
    · intro nothing
      have := congrArg List.length nothing
      simp at this
      omega
    · rwa [List.take_append_drop]
    · rw [List.take_append_drop, same, List.length_drop, Nat.sub_sub_self inner.le, places]
    · rw [List.take_append_drop]
      omega
  · rename_i outer
    have size : (zeros (k - d.digitChars.length) ++ d.digitChars).length = k := by
      rw [List.length_append, zeros, List.length_replicate]
      omega
    refine ⟨['0'], zeros (k - d.digitChars.length) ++ d.digitChars, ⟨?_, by simp, ?_⟩, ?_, ?_⟩
    · rw [if_neg (by simp [digitChars])]
      rfl
    · rw [List.forall_mem_append, List.forall_mem_append]
      exact ⟨by simp [Char.isDigit], zeros_digits _, digits⟩
    · have padded :
          digitsValue (['0'] ++ (zeros (k - d.digitChars.length) ++ d.digitChars)) = d.digits := by
        rw [digitsValue_eq, Nat.ofDigitChars_append, Nat.ofDigitChars_append]
        simp [Nat.ofDigitChars_cons, zeros, ← digitsValue_eq, same]
      rw [padded, size, places]
    · rw [List.length_append, size]
      simp

end Decimal

namespace Number

open Decimal (Plain)

/-- Both zeros have the same text, which is read as the one without sign. -/
def positiveZero (x : Float) : Float := if x == 0.0 then 0.0 else x

theorem signed_of_plain {text whole fraction : List Char} (plain : Plain text whole fraction) :
    signed text = (false, text) := by
  obtain ⟨c, rest, rfl, digit⟩ := plain.first
  unfold signed
  split
  · simp_all [Char.isDigit]
  · simp_all [Char.isDigit]
  · rfl

theorem ofMagnitude_isNegative {x : Float} (finite : x.isFinite = true) {m : Magnitude}
    (same : m.toBits = (magnitude x).toBits) : ofMagnitude (isNegative x) m = x := by
  have place : signBit = 2 ^ 63 := rfl
  have bound : x.toBits.toNat < 2 ^ 64 := x.toBits.toNat_lt
  have bits : (if isNegative x then signBit else 0) + m.toBits = x.toBits.toNat := by
    rw [same, magnitude, Magnitude.toBits_ofBits (pattern_lt finite), isNegative]
    simp only [decide_eq_true_eq, place]
    split <;> omega
  rw [ofMagnitude, bits, UInt64.ofNat_toNat]
  -- no import smaller than the whole of Mathlib brings this lemma
  exact Float.ofBits_toBits x

theorem ofMagnitude_eq {x : Float} (finite : x.isFinite = true) (positive : isNegative x = false)
    {m : Magnitude} (same : m.toBits = (magnitude x).toBits) : ofMagnitude false m = x := by
  rw [← positive]
  exact ofMagnitude_isNegative finite same

theorem positiveZero_eq {x : Float} (finite : x.isFinite = true) (positive : isNegative x = false) :
    positiveZero x = x := by
  unfold positiveZero
  split
  · rename_i zero
    have none_set := (pattern_eq_zero finite).mpr zero
    rw [← ofMagnitude_eq (m := ⟨0, Magnitude.leastExponent⟩) finite positive]
    · rfl
    · rw [magnitude, none_set]
      rfl
  · rfl

theorem display_zero {x : Float} (finite : x.isFinite = true) (zero : (x == 0.0) = true) :
    display x = ['0'] := by
  rw [display, isNaN_of_isFinite finite, isInf_of_isFinite finite, zero]
  rfl

theorem display_positive {x : Float} (finite : x.isFinite = true) (some_size : (x == 0.0) = false)
    (positive : isNegative x = false) :
    display x = ((magnitude x).shortest .upper).positional := by
  rw [display, isNaN_of_isFinite finite, isInf_of_isFinite finite, some_size, positive]
  rfl

/-- A number is read back from its text. -/
theorem read_display {x : Float} (finite : x.isFinite = true) (nonneg : 0.0 ≤ x) :
    ∃ whole fraction, Plain (display x) whole fraction ∧
      readDecimal? (display x) = some (positiveZero x) := by
  cases size : x == 0.0 with
  | true =>
    refine ⟨['0'], [], ⟨display_zero finite size, by simp, by simp [Char.isDigit]⟩, ?_⟩
    rw [display_zero finite size, positiveZero, if_pos size]
    rfl
  | false =>
    have some_bit : x.toBits.toNat % signBit ≠ 0 := by
      rw [Ne, pattern_eq_zero finite, size]
      decide
    have positive := isNegative_of_positive finite some_bit nonneg
    have canonical := Magnitude.canonical_ofBits (pattern_lt finite)
    change (magnitude x).Canonical at canonical
    have some_size : 0 < (magnitude x).significand := Magnitude.significand_ofBits_pos some_bit
    obtain ⟨covered, least⟩ := Magnitude.shortest_spec some_size canonical .upper
    obtain ⟨-, -, most⟩ := Magnitude.top_bounds canonical some_size covered
    rw [display_positive finite size positive, positiveZero_eq finite positive]
    obtain ⟨whole, fraction, plain, same, short⟩ :=
      Decimal.positional_plain ((magnitude x).shortest .upper)
    refine ⟨whole, fraction, plain, ?_⟩
    have enough : Decimal.significantDigits = 800 := rfl
    rw [readDecimal?, signed_of_plain plain]
    simp only [plain.read?, Option.map_some]
    rw [Decimal.ofDigits_eq (by omega)]
    congr 1
    apply ofMagnitude_eq finite positive
    apply Magnitude.toBits_toMagnitude canonical some_size
    rw [same]
    exact covered

end Number
end FlowScript
