import FlowScript.Number.Decimal

/-!
The decimal with the fewest digits that still reads back as a given number, and of those the
nearest one.
-/
namespace FlowScript

inductive Tie where
  | upper
  | even
  deriving DecidableEq, Repr

namespace Magnitude

/-- The reals that round to a size, in quarters of its unit: the size itself, the lower and the
    upper end. Below a power of two the neighbours are twice as dense. -/
structure Interval where
  middle : Nat
  lower : Nat
  upper : Nat
  closed : Bool
  exponent : Int
  deriving DecidableEq, Repr

def interval (x : Magnitude) : Interval :=
  let m := 4 * x.significand
  let dense := x.significand == Nat.pow 2 52 && leastExponent < x.exponent
  { middle := m
    lower := if dense then m - 1 else m - 2
    upper := m + 2
    closed := x.significand % 2 == 0
    exponent := x.exponent - 2 }

def Interval.factors (i : Interval) (power : Int) : Nat × Nat :=
  (Nat.pow 2 i.exponent.toNat * Nat.pow 10 (-power).toNat,
    Nat.pow 10 power.toNat * Nat.pow 2 (-i.exponent).toNat)

def Interval.holds (i : Interval) (c : Nat) (power : Int) : Bool :=
  let (f, g) := i.factors power
  if i.closed then i.lower * f ≤ c * g && c * g ≤ i.upper * f
  else i.lower * f < c * g && c * g < i.upper * f

def topPower (x : Magnitude) : Int :=
  let (num, den) := x.ratio
  if den ≤ num then (Decimal.countDigits (num / den) : Int) - 1
  else -(Decimal.countDigits ((den + num - 1) / num - 1) : Int)

/-- The nearer of the two multiples of `10 ^ power` around the size that read back as it. -/
def nearest? (tie : Tie) (i : Interval) (power : Int) : Option Decimal :=
  let (f, g) := i.factors power
  let c := i.middle * f / g
  let below := i.middle * f - c * g
  let takeUpper := g < 2 * below || (2 * below == g && (tie == .upper || c % 2 == 1))
  match i.holds c power, i.holds (c + 1) power with
  | true, true => some ⟨if takeUpper then c + 1 else c, power⟩
  | true, false => some ⟨c, power⟩
  | false, true => some ⟨c + 1, power⟩
  | false, false => none

def enoughDigits : Nat := 17

def shortest (tie : Tie) (x : Magnitude) : Decimal :=
  let i := x.interval
  let top := x.topPower
  let found := (List.range enoughDigits).findSome? fun k : Nat => nearest? tie i (top - k)
  match found with
  | some d => if d.digits % 10 = 0 then ⟨d.digits / 10, d.exponent + 1⟩ else d
  | none => ⟨0, 0⟩

end Magnitude
end FlowScript
