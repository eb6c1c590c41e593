import FlowScript.Number.Magnitude

/-!
Decimal numerals: digits with an optional point and an optional power of ten. Reading a numeral
gives the nearest number.
-/
namespace FlowScript

structure Decimal where
  digits : Nat
  exponent : Int
  deriving DecidableEq, Repr

namespace Decimal

def digitsValue (cs : List Char) : Nat :=
  cs.foldl (fun n c => 10 * n + (c.toNat - '0'.toNat)) 0

/-- The value of the digits up to where it reaches the limit; those after are passed over. Below the
    limit it is the value of them all. -/
def valueUpTo (limit : Nat) (cs : List Char) : Nat :=
  cs.foldl (fun n c => if n < limit then 10 * n + (c.toNat - '0'.toNat) else n) 0

def countDigits (n : Nat) : Nat := (Nat.toDigits 10 n).length

def tooLarge : Int := 310
def tooSmall : Int := -326

def toMagnitude (d : Decimal) : Magnitude :=
  let top := d.exponent + countDigits d.digits
  if d.digits = 0 ∨ top < tooSmall then ⟨0, Magnitude.leastExponent⟩
  else if tooLarge < top then .ofBits Magnitude.infinityBits
  else if d.exponent < 0 then .ofRatio d.digits (Nat.pow 10 (-d.exponent).toNat)
  else .ofRatio (d.digits * Nat.pow 10 d.exponent.toNat) 1

def exponentLimit : Nat := 65536

def readExponent? : List Char → Option Int
  | [] => some 0
  | c :: rest =>
    if c = 'e' ∨ c = 'E' then
      match rest with
      | '-' :: ds => (digits? ds).map fun n => -(n : Int)
      | '+' :: ds => (digits? ds).map fun n => (n : Int)
      | ds => (digits? ds).map fun n => (n : Int)
    else none
where
  digits? (ds : List Char) : Option Nat :=
    if !ds.isEmpty && ds.all Char.isDigit then some (valueUpTo exponentLimit ds) else none

/-- No number, and no middle between two neighbouring ones, has more digits than this. -/
def significantDigits : Nat := 800

/-- The digits times a power of ten. Beyond the significant digits it only matters whether anything
    but zeros follows, and a one in their place says so. -/
def ofDigits (digits : List Char) (exponent : Int) : Decimal :=
  let all := digits.dropWhile (· == '0')
  let kept := digitsValue (all.take significantDigits)
  let tail := all.drop significantDigits
  if tail.all (· == '0') then ⟨kept, exponent + tail.length⟩
  else ⟨10 * kept + 1, exponent + tail.length - 1⟩

def read? (cs : List Char) : Option Decimal :=
  let whole := cs.takeWhile Char.isDigit
  let rest := cs.dropWhile Char.isDigit
  let (fraction, rest) :=
    match rest with
    | '.' :: more => (more.takeWhile Char.isDigit, more.dropWhile Char.isDigit)
    | _ => ([], rest)
  if whole.isEmpty && fraction.isEmpty then none
  else (readExponent? rest).map fun e => ofDigits (whole ++ fraction) (e - fraction.length)

end Decimal

namespace Number

def signed (cs : List Char) : Bool × List Char :=
  match cs with
  | '-' :: rest => (true, rest)
  | '+' :: rest => (false, rest)
  | _ => (false, cs)

def readDecimal? (cs : List Char) : Option Float :=
  let (negative, rest) := signed cs
  (Decimal.read? rest).map fun d => ofMagnitude negative d.toMagnitude

def read? (cs : List Char) : Option Float :=
  let (negative, rest) := signed cs
  let name := rest.map Char.toLower
  if name = "inf".toList ∨ name = "infinity".toList then
    some (if negative then -infinity else infinity)
  else if name = "nan".toList then some notANumber
  else readDecimal? cs

end Number
end FlowScript
