import FlowScript.Calendar.Moment
import FlowScript.Number.Decimal
import FlowScript.Text.Blank

/-!
Reading moments from text. A layout is a list of pieces; each takes its characters off the front of
the text, and all of the text has to be taken.
-/
namespace FlowScript.Calendar

inductive Piece where
  | year | month | day | hour | minute | second
  | fraction
  | blanks
  | mark (c : Char)
  deriving DecidableEq, Repr

structure Fields where
  year : Int := 0
  month : Nat := 0
  day : Nat := 0
  hour : Nat := 0
  minute : Nat := 0
  second : Nat := 0
  nano : Nat := 0
  deriving DecidableEq, Repr

def digits? (width : Nat) (cs : List Char) : Option (Nat × List Char) :=
  match (cs.take width).takeWhile Char.isDigit with
  | [] => none
  | ds => some (Decimal.digitsValue ds, cs.drop ds.length)

def yearLimit : Nat := 1000000

def longYear? (cs : List Char) : Option (Nat × List Char) :=
  match cs.takeWhile Char.isDigit with
  | [] => none
  | ds => some (Decimal.valueUpTo yearLimit ds, cs.dropWhile Char.isDigit)

/-- Four digits at most, or any number of them after a sign. -/
def signedYear? (cs : List Char) : Option (Int × List Char) :=
  match cs with
  | '-' :: rest => (longYear? rest).map fun (n, rest) => (-(n : Int), rest)
  | '+' :: rest => (longYear? rest).map fun (n, rest) => ((n : Int), rest)
  | _ => (digits? 4 cs).map fun (n, rest) => ((n : Int), rest)

def nanos? (cs : List Char) : Option (Nat × List Char) :=
  match cs.takeWhile Char.isDigit with
  | [] => none
  | ds =>
    let kept := ds.take 9
    some (Decimal.digitsValue kept * Nat.pow 10 (9 - kept.length), cs.dropWhile Char.isDigit)

def field? (least most : Nat) (cs : List Char) : Option (Nat × List Char) :=
  match digits? 2 (Text.trimStart cs) with
  | some (n, rest) => if least ≤ n ∧ n ≤ most then some (n, rest) else none
  | none => none

def take? (piece : Piece) (f : Fields) (cs : List Char) : Option (Fields × List Char) :=
  match piece with
  | .year => (signedYear? (Text.trimStart cs)).map fun (n, rest) => ({ f with year := n }, rest)
  | .month => (field? 1 12 cs).map fun (n, rest) => ({ f with month := n }, rest)
  | .day => (field? 1 31 cs).map fun (n, rest) => ({ f with day := n }, rest)
  | .hour => (field? 0 23 cs).map fun (n, rest) => ({ f with hour := n }, rest)
  | .minute => (field? 0 59 cs).map fun (n, rest) => ({ f with minute := n }, rest)
  | .second => (field? 0 60 cs).map fun (n, rest) => ({ f with second := n }, rest)
  | .fraction =>
    match cs with
    | '.' :: rest => (nanos? rest).map fun (n, rest) => ({ f with nano := n }, rest)
    | _ => some (f, cs)
  | .blanks => some (f, Text.trimStart cs)
  | .mark c =>
    match cs with
    | d :: rest => if c = d then some (f, rest) else none
    | [] => none

def takeAll? (layout : List Piece) (f : Fields) (cs : List Char) : Option Fields :=
  match layout with
  | [] => if cs.isEmpty then some f else none
  | piece :: more =>
    match take? piece f cs with
    | some (f, rest) => takeAll? more f rest
    | none => none

/-- The moment that the fields name, if its day exists. The sixtieth second is a leap second. -/
def Fields.moment? (f : Fields) : Option Moment :=
  let start := (f.hour * 60 + f.minute) * 60
  match (Day.mk f.year f.month f.day).valid? with
  | none => none
  | some day =>
    if f.second = 60 then some ⟨day, start + 59, Moment.nanosPerSecond + f.nano⟩
    else some ⟨day, start + f.second, f.nano⟩

def parse? (layout : List Piece) (cs : List Char) : Option Moment :=
  (takeAll? layout {} cs).bind Fields.moment?

def isoDay : List Piece := [.year, .mark '-', .month, .mark '-', .day]

def slashDay : List Piece := [.month, .mark '/', .day, .mark '/', .year]

def clock : List Piece := [.hour, .mark ':', .minute, .mark ':', .second]

def layouts : List (List Piece) :=
  [isoDay ++ .blanks :: clock ++ [.fraction],
   isoDay ++ .mark 'T' :: clock ++ [.fraction],
   isoDay ++ [.blanks, .hour, .mark ':', .minute],
   slashDay ++ .blanks :: clock,
   isoDay,
   slashDay]

def read? (cs : List Char) : Option Moment := layouts.findSome? fun layout => parse? layout cs

end FlowScript.Calendar
