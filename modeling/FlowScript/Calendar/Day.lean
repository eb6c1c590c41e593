/-!
Days of the Gregorian calendar, extended without end in both directions and cut off at the years
that a moment may have.
-/
namespace FlowScript

structure Day where
  year : Int
  month : Nat
  day : Nat
  deriving DecidableEq, Repr

namespace Day

def firstYear : Int := -262143
def lastYear : Int := 262142

def isLeapYear (year : Int) : Bool :=
  year % 4 == 0 && (year % 100 != 0 || year % 400 == 0)

def monthLengths (year : Int) : List Nat :=
  [31, if isLeapYear year then 29 else 28, 31, 30, 31, 30, 31, 31, 30, 31, 30, 31]

def monthLength (year : Int) (month : Nat) : Nat :=
  match month with
  | 0 => 0
  | m + 1 => (monthLengths year)[m]?.getD 0

def Valid (d : Day) : Prop :=
  firstYear ≤ d.year ∧ d.year ≤ lastYear ∧ 1 ≤ d.day ∧ d.day ≤ monthLength d.year d.month

instance (d : Day) : Decidable d.Valid := by
  unfold Valid
  infer_instance

def valid? (d : Day) : Option Day := if d.Valid then some d else none

def ordinal (d : Day) : Nat := ((monthLengths d.year).take (d.month - 1)).foldl (· + ·) 0 + d.day

/-- Days from the first of January of the year 0 to that of the given year. -/
def daysBefore (year : Int) : Int :=
  let y := year - 1
  365 * year + y / 4 - y / 100 + y / 400 + 1

def epoch : Int := daysBefore 1970

def number (d : Day) : Int := daysBefore d.year + d.ordinal - 1 - epoch

def monthAndDay (lengths : List Nat) (month ordinal : Nat) : Nat × Nat :=
  match lengths with
  | [] => (month, ordinal)
  | n :: rest => if ordinal ≤ n then (month, ordinal) else monthAndDay rest (month + 1) (ordinal - n)

/-- The year in which the day with this number lies: the mean year length gives it up to one. -/
def yearOf (number : Int) : Int :=
  let n := number + epoch
  let guess := (n * 400) / 146097
  if n < daysBefore guess then guess - 1
  else if daysBefore (guess + 1) ≤ n then guess + 1
  else guess

def ofNumber (number : Int) : Day :=
  let year := yearOf number
  let place := (number + epoch - daysBefore year + 1).toNat
  let (month, day) := monthAndDay (monthLengths year) 1 place
  ⟨year, month, day⟩

def addDays? (d : Day) (count : Int) : Option Day := (ofNumber (d.number + count)).valid?

def addMonths? (d : Day) (count : Int) : Option Day :=
  let months := d.year * 12 + ((d.month : Int) - 1) + count
  let year := months / 12
  let month := (months % 12).toNat + 1
  valid? ⟨year, month, min d.day (monthLength year month)⟩

def weekday (d : Day) : Nat := ((d.number + 3) % 7).toNat

def weekdayFromSunday (d : Day) : Nat := (d.weekday + 1) % 7

def weekWith (d : Day) (offset : Nat) : Nat := (d.ordinal + 6 - offset) / 7

/-- The week-based year and the week: each belongs to the year that holds its Thursday. -/
def isoWeek (d : Day) : Int × Nat :=
  let thursday := ofNumber (d.number + 3 - d.weekday)
  (thursday.year, (thursday.ordinal + 6) / 7)

end Day
end FlowScript
