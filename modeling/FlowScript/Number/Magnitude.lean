/-!
Finite numbers as exact integers. The size of a number is `significand * 2 ^ exponent`; a ratio of
two naturals is rounded back to the nearest such size, a tie going to the even significand.
-/
namespace FlowScript

structure Magnitude where
  significand : Nat
  exponent : Int
  deriving DecidableEq, Repr

namespace Magnitude

def leastExponent : Int := -1074

def infinityBits : Nat := 2047 * Nat.pow 2 52

def ofBits (bits : Nat) : Magnitude :=
  let e : Nat := bits / Nat.pow 2 52
  let f : Nat := bits % Nat.pow 2 52
  if e = 0 then ⟨f, leastExponent⟩ else ⟨Nat.pow 2 52 + f, (e : Int) - 1075⟩

/-- The bit pattern of `significand * 2 ^ exponent`. A significand that has grown to `2 ^ 53`
    carries into the exponent, and sizes beyond the largest finite one are infinite. -/
def toBits (x : Magnitude) : Nat :=
  min ((x.exponent - leastExponent).toNat * Nat.pow 2 52 + x.significand) infinityBits

def roundDiv (num den : Nat) : Nat :=
  let q := num / den
  let r := num % den
  if den < 2 * r ∨ (2 * r = den ∧ q % 2 = 1) then q + 1 else q

def scaled (num den : Nat) (exponent : Int) : Nat × Nat :=
  if exponent < 0 then (num * Nat.pow 2 (-exponent).toNat, den)
  else (num, den * Nat.pow 2 exponent.toNat)

def exponentOf (num den : Nat) : Int :=
  let guess : Int := (Nat.log2 num : Int) - Nat.log2 den - 52
  let (a, b) := scaled num den guess
  max leastExponent (if a / b < Nat.pow 2 52 then guess - 1 else guess)

def ofRatio (num den : Nat) : Magnitude :=
  let e := if num = 0 then leastExponent else exponentOf num den
  let (a, b) := scaled num den e
  ⟨roundDiv a b, e⟩

def ratio (x : Magnitude) : Nat × Nat :=
  if x.exponent < 0 then (x.significand, Nat.pow 2 (-x.exponent).toNat)
  else (x.significand * Nat.pow 2 x.exponent.toNat, 1)

end Magnitude

namespace Number

def signBit : Nat := Nat.pow 2 63

def isNegative (x : Float) : Bool := signBit ≤ x.toBits.toNat

def magnitude (x : Float) : Magnitude := .ofBits (x.toBits.toNat % signBit)

def ofMagnitude (negative : Bool) (m : Magnitude) : Float :=
  Float.ofBits (UInt64.ofNat ((if negative then signBit else 0) + m.toBits))

def notANumber : Float := 0.0 / 0.0

def infinity : Float := 1.0 / 0.0

def whole (x : Float) : Nat :=
  let (num, den) := (magnitude x).ratio
  num / den

def truncate (x : Float) : Float :=
  if x.isFinite then ofMagnitude (isNegative x) (.ofRatio (whole x) 1) else x

def isTruthy (x : Float) : Bool := x != 0.0 && !x.isNaN

def ofBool (b : Bool) : Float := if b then 1.0 else 0.0

/-- What is left of the finite `x` after taking away whole multiples of the finite, non-zero `y`. -/
def remainderSize (x y : Magnitude) : Magnitude :=
  let e := min x.exponent y.exponent
  let a := x.significand * Nat.pow 2 (x.exponent - e).toNat
  let b := y.significand * Nat.pow 2 (y.exponent - e).toNat
  let r := a % b
  if e < 0 then .ofRatio r (Nat.pow 2 (-e).toNat) else .ofRatio (r * Nat.pow 2 e.toNat) 1

def remainder (x y : Float) : Float :=
  if x.isNaN || y.isNaN || x.isInf || y == 0.0 then notANumber
  else if y.isInf || x == 0.0 then x
  else ofMagnitude (isNegative x) (remainderSize (magnitude x) (magnitude y))

end Number
end FlowScript
