import FlowScript.Calendar.Moment
import FlowScript.Text.Blank

/-!
Writing moments after a pattern: a percent sign and a letter stand for a field of the moment, all
other characters for themselves. A pattern with an unknown field, or with one that needs a time
zone, writes nothing.
-/
namespace FlowScript.Calendar

inductive Padding where
  | none | zero | space
  deriving DecidableEq, Repr

inductive Field where
  | year | century | yearOfCentury | isoYear | isoYearOfCentury | quarter
  | month | day | sundayWeek | mondayWeek | isoWeek | fromSunday | fromMonday | ordinal
  | hour | hour12 | minute | second | nanosecond | timestamp
  deriving DecidableEq, Repr

inductive NameLength where
  | short | long
  deriving DecidableEq, Repr

inductive Item where
  | literal (c : Char)
  | number (field : Field) (padding : Padding)
  | weekdayName (length : NameLength)
  | monthName (length : NameLength)
  | halfDay (upper : Bool)
  | trimmedFraction
  | fraction (places : Nat)
  | bareFraction (places : Nat)
  deriving DecidableEq, Repr

def zeroPadded (f : Field) : Item := .number f .zero
def spacePadded (f : Field) : Item := .number f .space
def unpadded (f : Field) : Item := .number f .none

def dateItems : List Item :=
  [zeroPadded .month, .literal '/', zeroPadded .day, .literal '/', zeroPadded .yearOfCentury]

def isoDateItems : List Item :=
  [zeroPadded .year, .literal '-', zeroPadded .month, .literal '-', zeroPadded .day]

def clockItems : List Item :=
  [zeroPadded .hour, .literal ':', zeroPadded .minute, .literal ':', zeroPadded .second]

def clock12Items : List Item :=
  [zeroPadded .hour12, .literal ':', zeroPadded .minute, .literal ':', zeroPadded .second,
   .literal ' ', .halfDay true]

def fullItems : List Item :=
  [.weekdayName .short, .literal ' ', .monthName .short, .literal ' ', spacePadded .day,
   .literal ' '] ++ clockItems ++ [.literal ' ', zeroPadded .year]

def letterItems? (c : Char) : Option (List Item) :=
  match c with
  | 'A' => some [.weekdayName .long]
  | 'B' => some [.monthName .long]
  | 'C' => some [zeroPadded .century]
  | 'D' => some dateItems
  | 'F' => some isoDateItems
  | 'G' => some [zeroPadded .isoYear]
  | 'H' => some [zeroPadded .hour]
  | 'I' => some [zeroPadded .hour12]
  | 'M' => some [zeroPadded .minute]
  | 'P' => some [.halfDay false]
  | 'R' => some [zeroPadded .hour, .literal ':', zeroPadded .minute]
  | 'S' => some [zeroPadded .second]
  | 'T' => some clockItems
  | 'U' => some [zeroPadded .sundayWeek]
  | 'V' => some [zeroPadded .isoWeek]
  | 'W' => some [zeroPadded .mondayWeek]
  | 'X' => some clockItems
  | 'Y' => some [zeroPadded .year]
  | 'a' => some [.weekdayName .short]
  | 'b' => some [.monthName .short]
  | 'c' => some fullItems
  | 'd' => some [zeroPadded .day]
  | 'e' => some [spacePadded .day]
  | 'f' => some [zeroPadded .nanosecond]
  | 'g' => some [zeroPadded .isoYearOfCentury]
  | 'h' => some [.monthName .short]
  | 'j' => some [zeroPadded .ordinal]
  | 'k' => some [spacePadded .hour]
  | 'l' => some [spacePadded .hour12]
  | 'm' => some [zeroPadded .month]
  | 'n' => some [.literal '\n']
  | 'p' => some [.halfDay true]
  | 'q' => some [unpadded .quarter]
  | 'r' => some clock12Items
  | 's' => some [unpadded .timestamp]
  | 't' => some [.literal '\t']
  | 'u' => some [unpadded .fromMonday]
  | 'v' => some [spacePadded .day, .literal '-', .monthName .short, .literal '-', zeroPadded .year]
  | 'w' => some [unpadded .fromSunday]
  | 'x' => some dateItems
  | 'y' => some [zeroPadded .yearOfCentury]
  | '%' => some [.literal '%']
  | _ => none

def padding? (c : Char) : Option Padding :=
  match c with
  | '-' => some .none
  | '0' => some .zero
  | '_' => some .space
  | _ => none

def places? (c : Char) : Option Nat :=
  match c with
  | '3' => some 3
  | '6' => some 6
  | '9' => some 9
  | _ => none

def repad? (padding : Padding) (items : List Item) : Option (List Item) :=
  match items with
  | [.number f _] => some [.number f padding]
  | _ => none

def items? (pattern : List Char) : Option (List Item) :=
  match pattern with
  | [] => some []
  | '%' :: '.' :: 'f' :: rest => (items? rest).map (.trimmedFraction :: ·)
  | '%' :: '.' :: n :: 'f' :: rest =>
    match places? n, items? rest with
    | some places, some more => some (.fraction places :: more)
    | _, _ => none
  | '%' :: c :: rest =>
    match padding? c, places? c, rest with
    | some padding, _, letter :: rest =>
      match (letterItems? letter).bind (repad? padding), items? rest with
      | some found, some more => some (found ++ more)
      | _, _ => none
    | none, some places, 'f' :: rest => (items? rest).map (.bareFraction places :: ·)
    | none, none, rest =>
      match letterItems? c, items? rest with
      | some found, some more => some (found ++ more)
      | _, _ => none
    | _, _, _ => none
  | ['%'] => none
  | c :: rest => (items? rest).map (.literal c :: ·)

def weekdayNames : List String :=
  ["Monday", "Tuesday", "Wednesday", "Thursday", "Friday", "Saturday", "Sunday"]

def monthNames : List String :=
  ["January", "February", "March", "April", "May", "June", "July", "August", "September",
   "October", "November", "December"]

def cut (length : NameLength) (name : String) : List Char :=
  match length with
  | .short => name.toList.take 3
  | .long => name.toList

def padLeft (width : Nat) (fill : Char) (cs : List Char) : List Char :=
  List.replicate (width - cs.length) fill ++ cs

def writeWide (width : Nat) (n : Int) (padding : Padding) (plus : Bool) : List Char :=
  let digits := Nat.toDigits 10 n.natAbs
  let sign := if n < 0 then ['-'] else if plus then ['+'] else []
  match padding with
  | .none => sign ++ digits
  | .zero => sign ++ padLeft (width - sign.length) '0' digits
  | .space => padLeft width ' ' (sign ++ digits)

def writeYear (year : Int) (padding : Padding) : List Char :=
  if 0 ≤ year ∧ year < 10000 then writeWide 4 year padding false else writeWide 5 year padding true

/-- A number below 256 in two characters, the first of which counts on beyond nine. -/
def writeTwo (n : Nat) (padding : Padding) : List Char :=
  let tens := Char.ofNat ('0'.toNat + n / 10)
  let ones := Char.ofNat ('0'.toNat + n % 10)
  if n < 10 then
    match padding with
    | .none => [ones]
    | .zero => [tens, ones]
    | .space => [' ', ones]
  else [tens, ones]

def lowByte (n : Int) : Nat := (n % 256).toNat

def hour12 (hour : Nat) : Nat := if hour % 12 = 0 then 12 else hour % 12

def writeField (m : Moment) (field : Field) (padding : Padding) : List Char :=
  let d := m.day
  match field with
  | .year => writeYear d.year padding
  | .century => writeTwo (lowByte (d.year / 100)) padding
  | .yearOfCentury => writeTwo (lowByte (d.year % 100)) padding
  | .isoYear => writeYear d.isoWeek.1 padding
  | .isoYearOfCentury => writeTwo (lowByte (d.isoWeek.1 % 100)) padding
  | .quarter => Nat.toDigits 10 ((d.month - 1) / 3 + 1)
  | .month => writeTwo d.month padding
  | .day => writeTwo d.day padding
  | .sundayWeek => writeTwo (d.weekWith d.weekdayFromSunday) padding
  | .mondayWeek => writeTwo (d.weekWith d.weekday) padding
  | .isoWeek => writeTwo d.isoWeek.2 padding
  | .fromSunday => Nat.toDigits 10 d.weekdayFromSunday
  | .fromMonday => Nat.toDigits 10 (d.weekday + 1)
  | .ordinal => writeWide 3 d.ordinal padding false
  | .hour => writeTwo m.hour padding
  | .hour12 => writeTwo (hour12 m.hour) padding
  | .minute => writeTwo m.minute padding
  | .second => writeTwo (m.second % 60 + m.nano / Moment.nanosPerSecond) padding
  | .nanosecond => writeWide 9 (m.nano % Moment.nanosPerSecond) padding false
  | .timestamp => writeWide 9 m.epochSecond padding false

def fractionDigits (m : Moment) (places : Nat) : List Char :=
  (padLeft 9 '0' (Nat.toDigits 10 (m.nano % Moment.nanosPerSecond))).take places

/-- Three, six or nine digits, as few as lose nothing; none for a whole second. -/
def writeTrimmedFraction (m : Moment) : List Char :=
  let nano := m.nano % Moment.nanosPerSecond
  if nano = 0 then []
  else if nano % 1000000 = 0 then '.' :: fractionDigits m 3
  else if nano % 1000 = 0 then '.' :: fractionDigits m 6
  else '.' :: fractionDigits m 9

def writeItem (m : Moment) : Item → List Char
  | .literal c => [c]
  | .number field padding => writeField m field padding
  | .weekdayName length => cut length (weekdayNames[m.day.weekday]?.getD "")
  | .monthName length => cut length (monthNames[m.day.month - 1]?.getD "")
  | .halfDay upper =>
    match upper, decide (12 ≤ m.hour) with
    | true, true => ['P', 'M']
    | true, false => ['A', 'M']
    | false, true => ['p', 'm']
    | false, false => ['a', 'm']
  | .trimmedFraction => writeTrimmedFraction m
  | .fraction places => '.' :: fractionDigits m places
  | .bareFraction places => fractionDigits m places

def write (m : Moment) (items : List Item) : List Char := items.flatMap (writeItem m)

def format? (m : Moment) (pattern : List Char) : Option (List Char) :=
  (items? pattern).map (write m)

end FlowScript.Calendar
