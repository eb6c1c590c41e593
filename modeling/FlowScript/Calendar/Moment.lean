import FlowScript.Calendar.Day

/-!
Moments: a day, a second of it and nanoseconds. A leap second is the second before it with a
thousand million nanoseconds or more.
-/
namespace FlowScript

structure Moment where
  day : Day
  second : Nat
  nano : Nat
  deriving DecidableEq, Repr

namespace Moment

def secondsPerDay : Nat := 86400
def nanosPerSecond : Nat := 1000000000
def nanosPerMilli : Nat := 1000000

def hour (m : Moment) : Nat := m.second / 3600
def minute (m : Moment) : Nat := m.second / 60 % 60

def epochSecond (m : Moment) : Int := m.day.number * secondsPerDay + m.second

def epochMilli (m : Moment) : Int := m.epochSecond * 1000 + m.nano / nanosPerMilli

def key (m : Moment) : List Int := [m.day.year, m.day.month, m.day.day, m.second, m.nano]

def compareKeys : List Int → List Int → Ordering
  | a :: as, b :: bs => (compare a b).then (compareKeys as bs)
  | [], [] => .eq
  | [], _ :: _ => .lt
  | _ :: _, [] => .gt

def compare (a b : Moment) : Ordering := compareKeys a.key b.key

structure Span where
  seconds : Int
  nanos : Int
  deriving DecidableEq, Repr

def Span.ofSeconds (n : Int) : Span := ⟨n, 0⟩

def Span.ofMillis (n : Int) : Span := ⟨n.tdiv 1000, n.tmod 1000 * nanosPerMilli⟩

def carry? (m : Moment) (seconds nanos : Int) : Option Moment :=
  let seconds := seconds + nanos / nanosPerSecond
  match m.day.addDays? (seconds / secondsPerDay) with
  | some day => some ⟨day, (seconds % secondsPerDay).toNat, (nanos % nanosPerSecond).toNat⟩
  | none => none

/-- Adds a span. A leap second is left behind when the sum reaches beyond it on either side. -/
def add? (m : Moment) (span : Span) : Option Moment :=
  let second : Int := m.second
  let nano : Int := m.nano
  if m.nano < nanosPerSecond then carry? m (second + span.seconds) (nano + span.nanos)
  else if 0 < span.seconds ∨ (0 < span.nanos ∧ 2 * nanosPerSecond ≤ nano + span.nanos) then
    carry? m (second + span.seconds) (nano - nanosPerSecond + span.nanos)
  else if span.seconds < 0 then
    carry? m (second + 1 + span.seconds) (nano - nanosPerSecond + span.nanos)
  else some { m with nano := (nano + span.nanos).toNat }

def addMonths? (m : Moment) (count : Int) : Option Moment :=
  (m.day.addMonths? count).map fun day => { m with day }

end Moment
end FlowScript
