import FlowScript.Proofs.Library.ByName
import FlowScript.Proofs.Text.Blank
import FlowScript.Text.Case
import FlowScript.Text.Hex
import Mathlib.Tactic.IntervalCases

/-!
Bytes written in hexadecimal digits. Main statement: reading gives back what was written, and what
can be read is what writing gives, white space around it and the case of its letters aside, unless
a plus sign stands for the first digit of a pair.
-/
namespace FlowScript

namespace Hex

variable {c a b : Char} {n : Nat} {x y : UInt8} {cs : List Char} {bytes : List UInt8}

def digits : List Char := "0123456789abcdefABCDEF".toList

def leading (a : Char) : Char := if a = '+' then '0' else a

theorem digitValue?_digit (small : n < 16) : digitValue? (digit n) = some n := by
  interval_cases n <;> decide

theorem digit_written (small : n < 16) :
    digit n ∈ digits ∧ leading (digit n) = digit n ∧ (digit n).toLower = digit n := by
  interval_cases n <;> decide

-- Decided along the list; left to itself, the search would go through all characters.
theorem forall_digits {p : Char → Prop} [DecidablePred p] (all : digits.all (p ·) = true) :
    ∀ c ∈ digits, p c := by
  intro c listed
  exact of_decide_eq_true (List.all_eq_true.mp all c listed)

theorem value_of_mem : ∀ c ∈ digits, ∃ n < 16, digitValue? c = some n ∧ digit n = c.toLower :=
  forall_digits (by decide)

theorem mem_of_value (value : digitValue? c = some n) : c ∈ digits := by
  have ascii : c.toNat < 128 := by
    unfold digitValue? at value
    have last : '9'.toNat = 57 ∧ 'f'.toNat = 102 ∧ 'F'.toNat = 70 := by decide
    simp only [Char.le_def, UInt32.le_iff_toNat_le, ← Char.toNat_val] at value last ⊢
    grind
  have each : ∀ k < 128, (digitValue? (Char.ofNat k)).isSome → Char.ofNat k ∈ digits := by decide
  have here := each c.toNat ascii
  rw [Char.ofNat_toNat, value] at here
  exact here rfl

theorem byte?_leading (a b : Char) :
    byte? a b = (digitValue? (leading a)).bind fun m =>
      (digitValue? b).map fun n => UInt8.ofNat (16 * m + n) := by
  by_cases plus : a = '+'
  · have zero : digitValue? '0' = some 0 := by decide
    rw [byte?, leading, if_pos plus, if_pos plus, zero]
    simp
  · rw [byte?, leading, if_neg plus, if_neg plus]
    cases digitValue? a <;> cases digitValue? b <;> rfl

theorem encodeByte_ofNat {m : Nat} (high : m < 16) (low : n < 16) :
    encodeByte (UInt8.ofNat (16 * m + n)) = [digit m, digit n] := by
  have whole : (16 * m + n) % 2 ^ 8 = 16 * m + n := Nat.mod_eq_of_lt (by omega)
  have first : (16 * m + n) / 16 = m := by omega
  have second : (16 * m + n) % 16 = n := by omega
  rw [encodeByte, UInt8.toNat_ofNat', whole, first, second]

theorem digit_injective {m : Nat} (high : m < 16) (low : n < 16) (same : digit m = digit n) :
    m = n := by
  have values := digitValue?_digit high
  rw [same, digitValue?_digit low] at values
  exact (Option.some.inj values).symm

theorem encodeByte_injective (same : encodeByte x = encodeByte y) : x = y := by
  have small := x.toNat_lt
  have small' := y.toNat_lt
  simp only [encodeByte, List.cons.injEq, and_true] at same
  have high := digit_injective (by omega) (by omega) same.1
  have low := digit_injective (by omega) (by omega) same.2
  apply UInt8.toNat_inj.mp
  omega

theorem byte?_eq_some : byte? a b = some x ↔
    (leading a ∈ digits ∧ b ∈ digits) ∧ encodeByte x = [(leading a).toLower, b.toLower] := by
  rw [byte?_leading]
  constructor
  · intro read
    obtain ⟨m, first, rest⟩ := Option.bind_eq_some_iff.mp read
    obtain ⟨n, second, rfl⟩ := Option.map_eq_some_iff.mp rest
    obtain ⟨m', high, first', spelled⟩ := value_of_mem _ (mem_of_value first)
    obtain ⟨n', low, second', spelled'⟩ := value_of_mem _ (mem_of_value second)
    cases first.symm.trans first'
    cases second.symm.trans second'
    rw [encodeByte_ofNat high low, spelled, spelled']
    exact ⟨⟨mem_of_value first, mem_of_value second⟩, rfl⟩
  · rintro ⟨⟨first, second⟩, written⟩
    obtain ⟨m, high, value, spelled⟩ := value_of_mem _ first
    obtain ⟨n, low, value', spelled'⟩ := value_of_mem _ second
    rw [← spelled, ← spelled', ← encodeByte_ofNat high low] at written
    rw [value, value', encodeByte_injective written]
    rfl

theorem byte?_encodeByte (x : UInt8) :
    byte? (digit (x.toNat / 16)) (digit (x.toNat % 16)) = some x := by
  have small := x.toNat_lt
  obtain ⟨first, plain, lower⟩ := digit_written (n := x.toNat / 16) (by omega)
  obtain ⟨second, _, lower'⟩ := digit_written (n := x.toNat % 16) (by omega)
  rw [byte?_eq_some, plain, lower, lower']
  exact ⟨⟨first, second⟩, rfl⟩

/-- The text with a zero for every plus sign that stands first in a pair. -/
def unsigned : List Char → List Char
  | a :: b :: rest => leading a :: b :: unsigned rest
  | rest => rest

theorem decodePairs_encode (bytes : List UInt8) : decodePairs (encode bytes) = some bytes := by
  induction bytes with
  | nil => rfl
  | cons x rest ih =>
    change decodePairs (digit (x.toNat / 16) :: digit (x.toNat % 16) :: encode rest) = _
    rw [decodePairs, byte?_encodeByte, ih]
    rfl

theorem decodePairs_eq_some : decodePairs cs = some bytes ↔
    (cs.length % 2 = 0 ∧ ∀ c ∈ unsigned cs, c ∈ digits) ∧
      encode bytes = Text.asciiLower (unsigned cs) := by
  fun_induction decodePairs cs generalizing bytes with
  | case1 =>
    cases bytes <;> simp [unsigned, encode, encodeByte, Text.asciiLower]
  | case2 => simp
  | case3 a b rest x pair ih =>
    obtain ⟨⟨first, second⟩, written⟩ := byte?_eq_some.mp pair
    rw [Option.map_eq_some_iff]
    simp only [unsigned, List.forall_mem_cons, List.length_cons, Text.asciiLower, List.map_cons]
    constructor
    · rintro ⟨more, read, rfl⟩
      obtain ⟨⟨even, all⟩, same⟩ := ih.mp read
      refine ⟨⟨by omega, first, second, all⟩, ?_⟩
      change encodeByte x ++ encode more = _
      rw [written, same]
      rfl
    · rintro ⟨⟨even, _, _, all⟩, same⟩
      cases bytes with
      | nil => cases same
      | cons y more =>
        change encodeByte y ++ encode more = [_, _] ++ _ at same
        obtain ⟨here, there⟩ := List.append_inj same rfl
        cases encodeByte_injective (here.trans written.symm)
        exact ⟨more, ih.mpr ⟨⟨by omega, all⟩, there⟩, rfl⟩
  | case4 a b rest no_pair =>
    simp only [reduceCtorEq, false_iff]
    rintro ⟨⟨_, all⟩, same⟩
    simp only [unsigned, List.forall_mem_cons] at all
    cases bytes with
    | nil => cases same
    | cons y more =>
      change encodeByte y ++ encode more = [_, _] ++ _ at same
      obtain ⟨here, _⟩ := List.append_inj same rfl
      rw [byte?_eq_some.mpr ⟨⟨all.1, all.2.1⟩, here⟩] at no_pair
      cases no_pair

theorem unsigned_of_plain (plain : '+' ∉ cs) : unsigned cs = cs := by
  fun_induction unsigned cs with
  | case1 a b rest ih =>
    simp only [List.mem_cons, not_or] at plain
    rw [leading, if_neg (Ne.symm plain.1), ih plain.2.2]
  | case2 => rfl

theorem lower_unsigned (all : ∀ c ∈ unsigned cs, c ∈ digits) :
    Text.asciiLower (unsigned cs) = Text.asciiLower cs ↔ '+' ∉ cs := by
  fun_induction unsigned cs with
  | case1 a b rest ih =>
    simp only [List.forall_mem_cons] at all
    have other : '+' ≠ b := by
      rintro rfl
      exact absurd all.2.1 (by decide)
    have first : (leading a).toLower = a.toLower ↔ '+' ≠ a := by
      unfold leading
      split
      · rename_i plus
        subst plus
        decide
      · rename_i plain
        simpa using Ne.symm plain
    simp only [Text.asciiLower, List.map_cons, List.cons.injEq, true_and, first, List.mem_cons,
      not_or, other, not_false_eq_true, ne_eq]
    exact and_congr_right fun _ => ih all.2.2
  | case2 cs single =>
    simp only [true_iff]
    intro plus
    exact absurd (all _ plus) (by decide)

theorem encode_digits (bytes : List UInt8) : ∀ c ∈ encode bytes, c ∈ digits := by
  intro c there
  obtain ⟨x, _, here⟩ := List.mem_flatMap.mp there
  have small := x.toNat_lt
  rw [encodeByte, List.mem_pair] at here
  rcases here with rfl | rfl
  · exact (digit_written (by omega)).1
  · exact (digit_written (by omega)).1

theorem trim_encode (bytes : List UInt8) : Text.trim (encode bytes) = encode bytes := by
  have visible : ∀ c ∈ digits, Text.isBlank c = false := forall_digits (by decide)
  cases written : encode bytes with
  | nil => rfl
  | cons c rest =>
    have inside := encode_digits bytes
    rw [written] at inside
    have last := List.getLast?_eq_some_getLast (List.cons_ne_nil c rest)
    refine Text.trim_eq_self rfl last (visible _ (inside c List.mem_cons_self)) (visible _ ?_)
    exact inside _ (List.getLast_mem _)

end Hex

namespace Library

theorem callWith_hexToBinary (t : String) (m : Machine) :
    (callWith "HexToBinary" [.text t] m).1 =
      match Hex.decode t.toList with
      | some bytes => .ok (.binary bytes)
      | none => .error (.argumentMismatch "HexToBinary" (.notHex t)) := by
  have called : callWith "HexToBinary" [.text t] m = hexToBinary [.text t] _ :=
    callWith_immediate rfl rfl rfl rfl m rfl
  rw [called]
  change ((match Hex.decode t.toList with
    | some bytes => pure (.binary bytes)
    | none => Eval.fail (.argumentMismatch "HexToBinary" (.notHex t)) : Eval Value) _).1 = _
  cases Hex.decode t.toList <;> rfl

end Library

namespace Hex

/-- Reading gives back what was written. A text can be read exactly if, white space around it aside,
    it consists of pairs of digits, where a plus sign may stand for the first digit of a pair; its
    bytes are then written as this text in lower case, with zeros for the plus signs. So a text that
    can be read is how its bytes are written, case and white space aside, exactly if it consists of
    digits only, which is to say, if there is no plus sign in it. `HexToBinary` takes these texts. -/
theorem reading_inverts_writing_but_for_plus_signs (cs : List Char) (bytes : List UInt8) :
    decode (encode bytes) = some bytes ∧
    (decode cs = some bytes ↔
      ((Text.trim cs).length % 2 = 0 ∧ ∀ c ∈ unsigned (Text.trim cs), c ∈ digits) ∧
        encode bytes = Text.asciiLower (unsigned (Text.trim cs))) ∧
    (decode cs = some bytes →
      (encode bytes = Text.asciiLower (Text.trim cs) ↔ '+' ∉ cs) ∧
      ((∀ c ∈ Text.trim cs, c ∈ digits) ↔ '+' ∉ cs)) ∧
    ∀ t m, (Library.callWith "HexToBinary" [.text t] m).1 = .ok (.binary bytes) ↔
      decode t.toList = some bytes := by
  have plus_trim : '+' ∈ Text.trim cs ↔ '+' ∈ cs := Text.mem_trim (by decide)
  refine ⟨?_, decodePairs_eq_some, ?_, ?_⟩
  · rw [decode, trim_encode, decodePairs_encode]
  · intro read
    obtain ⟨⟨_, all⟩, written⟩ := decodePairs_eq_some.mp read
    rw [written, lower_unsigned all, ← plus_trim]
    refine ⟨Iff.rfl, fun only plus => absurd (only _ plus) (by decide), fun plain => ?_⟩
    rwa [unsigned_of_plain plain] at all
  · intro t m
    rw [Library.callWith_hexToBinary]
    cases decode t.toList <;> simp

theorem reading_inverts_writing_but_for_plus_signs_padded :
    decode "\t0Fa0 \n".toList = some [0x0f, 0xa0] ∧
      encode [0x0f, 0xa0] = Text.asciiLower (Text.trim "\t0Fa0 \n".toList) := by
  have read : decode "\t0Fa0 \n".toList = some [0x0f, 0xa0] := by decide
  obtain ⟨_, _, written, _⟩ :=
    reading_inverts_writing_but_for_plus_signs "\t0Fa0 \n".toList [0x0f, 0xa0]
  exact ⟨read, (written read).1.mpr (by decide)⟩

/-- A plus sign and a digit are read as a byte, though no byte is written so. -/
theorem plus_sign_reads_as_zero :
    ¬ ∀ cs bytes, decode cs = some bytes → encode bytes = Text.asciiLower (Text.trim cs) := by
  intro written
  exact absurd (written "+f".toList [0x0f] (by decide)) (by decide)

end Hex
end FlowScript
