import FlowScript.Store

/-!
Binary operators on values that are no arrays. The types of the two operands alone decide which
rule applies, and whether it gives a value or an error, division by zero apart.
-/
namespace FlowScript.Operator

def illegal (op : BinaryOp) (a b : Value) : RunError :=
  .illegalOperation op a.valueType b.valueType

def calculate (op : BinaryOp) (a b : Float) : Except RunError Value :=
  match op with
  | .add => .ok (.number (a + b))
  | .subtract => .ok (.number (a - b))
  | .multiply => .ok (.number (a * b))
  | .divide => if b == 0.0 then .error .divisionByZero else .ok (.number (a / b))
  | .power => .ok (.number (a.pow b))
  | _ => .ok .null

def concatenate (s : Store) (a b : Value) : Value := .text (s.render a ++ s.render b)

def other (a b : Value) : Value := if a.isNull then b else a

def arithmetic (s : Store) (op : BinaryOp) (a b : Value) : Except RunError Value :=
  match a, b with
  | .null, .null =>
    match op with
    | .add | .subtract => .ok .null
    | _ => .error (illegal op a b)
  | .number x, .number y => calculate op x y
  | .text _, .text _ | .bool _, .text _ | .text _, .bool _ =>
    if op = .add then .ok (concatenate s a b) else .error (illegal op a b)
  | .number _, .text _ | .text _, .number _ =>
    if op = .add then .ok (concatenate s a b) else calculate op a.toNumber b.toNumber
  | .null, .text _ | .text _, .null | .null, .bool _ | .bool _, .null =>
    if op = .add then .ok (other a b) else .error (illegal op a b)
  | .null, .number _ | .number _, .null =>
    if op = .add then .ok (other a b) else calculate op a.toNumber b.toNumber
  | _, _ => .error (illegal op a b)

def compareNumbers (x y : Float) : Option Ordering :=
  if x < y then some .lt else if y < x then some .gt else if x == y then some .eq else none

def compareTexts (x y : String) : Ordering :=
  if x < y then .lt else if y < x then .gt else .eq

/-- What a comparison says of an ordering. Of two values without one, only "different" holds. -/
def decideOrder (op : BinaryOp) (order : Option Ordering) : Bool :=
  match op, order with
  | .notEqual, none => true
  | _, none => false
  | .less, some o => o == .lt
  | .greater, some o => o == .gt
  | .lessEqual, some o => o != .gt
  | .greaterEqual, some o => o != .lt
  | .equal, some o => o == .eq
  | .notEqual, some o => o != .eq
  | _, some _ => false

def decideEquality (op : BinaryOp) (equal : Bool) : Value :=
  .bool (if op = .notEqual then !equal else equal)

def equalityOnly (op : BinaryOp) (a b : Value) (equal : Bool) : Except RunError Value :=
  if op.isOrdering then .error (illegal op a b) else .ok (decideEquality op equal)

def compareByNumber (op : BinaryOp) (a b : Value) : Value :=
  .bool (decideOrder op (compareNumbers a.toNumber b.toNumber))

def compareByText (s : Store) (op : BinaryOp) (a b : Value) : Value :=
  .bool (decideOrder op (some (compareTexts (s.render a) (s.render b))))

/-- Booleans have no order, and equal whatever is as true or false as they are. -/
def compareByTruth (s : Store) (op : BinaryOp) (a b : Value) : Except RunError Value :=
  if op.isOrdering then .error (.booleanComparison op a.valueType b.valueType)
  else .ok (decideEquality op (s.toBool a == s.toBool b))

def comparison (s : Store) (op : BinaryOp) (a b : Value) : Except RunError Value :=
  match a, b with
  | .dictionary _, _ | _, .dictionary _ =>
    equalityOnly op a b (a.sameContainer b || s.render a == s.render b)
  | .null, .null => .ok (.bool (op = .notEqual))
  | .number _, .number _ | .number _, .text _ | .text _, .number _
  | .null, .number _ | .number _, .null => .ok (compareByNumber op a b)
  | .text _, .text _ | .null, .text _ | .text _, .null => .ok (compareByText s op a b)
  | .bool _, .bool _ | .bool _, .text _ | .text _, .bool _ | .bool _, .number _
  | .number _, .bool _ | .null, .bool _ | .bool _, .null => compareByTruth s op a b
  | .date x, .date y =>
    if op.isOrdering then .ok (.bool (decideOrder op (some (x.compare y))))
    else .ok (decideEquality op (x == y))
  | .binary x, .binary y => equalityOnly op a b (x == y)
  | _, _ => equalityOnly op a b false

def isConjunction : BinaryOp → Bool
  | .logicalAnd | .and => true
  | _ => false

def connect (op : BinaryOp) (x y : Bool) : Value :=
  .bool (if isConjunction op then x && y else x || y)

def logical (s : Store) (op : BinaryOp) (a b : Value) : Except RunError Value :=
  match a, b with
  | .null, .null | .text _, .text _ => .ok (.bool false)
  | .number _, .number _ | .number _, .text _ | .text _, .number _
  | .null, .number _ | .number _, .null =>
    .ok (connect op (Number.isTruthy a.toNumber) (Number.isTruthy b.toNumber))
  | .bool _, .bool _ | .bool _, .text _ | .text _, .bool _ | .bool _, .number _
  | .number _, .bool _ | .null, .bool _ | .bool _, .null
  | .null, .text _ | .text _, .null => .ok (connect op (s.toBool a) (s.toBool b))
  | _, _ => .error (illegal op a b)

def scalar (s : Store) (op : BinaryOp) (a b : Value) : Except RunError Value :=
  match op.opClass with
  | .arithmetic => arithmetic s op a b
  | .comparison => comparison s op a b
  | .logical => logical s op a b

end FlowScript.Operator
