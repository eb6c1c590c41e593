import FlowScript.Text.Blank

/-!
Bytes as pairs of hexadecimal digits.
-/
namespace FlowScript.Hex

def digit (n : Nat) : Char := Nat.digitChar n

def encodeByte (b : UInt8) : List Char := [digit (b.toNat / 16), digit (b.toNat % 16)]

def encode (bytes : List UInt8) : List Char := bytes.flatMap encodeByte

def digitValue? (c : Char) : Option Nat :=
  if '0' ≤ c ∧ c ≤ '9' then some (c.toNat - '0'.toNat)
  else if 'a' ≤ c ∧ c ≤ 'f' then some (c.toNat - 'a'.toNat + 10)
  else if 'A' ≤ c ∧ c ≤ 'F' then some (c.toNat - 'A'.toNat + 10)
  else none

/-- A byte from two characters. The first may be a plus sign, which adds nothing. -/
def byte? (a b : Char) : Option UInt8 :=
  if a = '+' then (digitValue? b).map UInt8.ofNat
  else
    match digitValue? a, digitValue? b with
    | some x, some y => some (UInt8.ofNat (16 * x + y))
    | _, _ => none

def decodePairs : List Char → Option (List UInt8)
  | [] => some []
  | [_] => none
  | a :: b :: rest =>
    match byte? a b with
    | some x => (decodePairs rest).map (x :: ·)
    | none => none

/-- Reads pairs of digits, ignoring white space around them. -/
def decode (cs : List Char) : Option (List UInt8) := decodePairs (Text.trim cs)

end FlowScript.Hex
