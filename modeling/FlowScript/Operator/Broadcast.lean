import FlowScript.Operator.Scalar

/-!
Binary operators with an array on either side go element by element. All elements are worked out
first, from the operands as they are; only when every one of them succeeds are the arrays written.
-/
namespace FlowScript.Operator

inductive Update where
  | value (v : Value)
  | array (target : Handle) (items : List Update)
  deriving Repr, Inhabited

mutual

def Update.holds (s : Store) (target : Handle) : Update → Bool
  | .value v => s.holds v (.array target)
  | .array own items => own == target || Update.anyHolds s target items

def Update.anyHolds (s : Store) (target : Handle) : List Update → Bool
  | [] => false
  | u :: rest => u.holds s target || Update.anyHolds s target rest

end

mutual

def Update.commit (s : Store) : Update → Value × Store
  | .value v => (v, s)
  | .array target items =>
    let (values, s) := Update.commitAll s items
    (.array target, s.setItems target values)

def Update.commitAll (s : Store) : List Update → List Value × Store
  | [] => ([], s)
  | u :: rest =>
    let (v, s) := u.commit s
    let (vs, s) := Update.commitAll s rest
    (v :: vs, s)

end

/-- New contents for an array, unless the array would come to hold itself. -/
def fill (s : Store) (target : Handle) (items : List Update) : Except RunError Update :=
  if Update.anyHolds s target items then .error (.cyclicReference .array)
  else .ok (.array target items)

/-- The update within a bounded depth. The bound is only met on arrays that hold themselves. -/
def planWithin (s : Store) (op : BinaryOp) : Nat → Value → Value → Except RunError Update
  | 0, _, _ => .error (.cyclicReference .array)
  | n + 1, .array l, .array r =>
    let (xs, ys) := (s.items l, s.items r)
    if xs.length ≠ ys.length then .error (.arrayLengthMismatch op xs.length ys.length)
    else
      match (xs.zip ys).mapM fun p => planWithin s op n p.1 p.2 with
      | .ok items => fill s l items
      | .error e => .error e
  | n + 1, .array l, b =>
    match (s.items l).mapM fun x => planWithin s op n x b with
    | .ok items => fill s l items
    | .error e => .error e
  | n + 1, a, .array r =>
    match (s.items r).mapM fun y => planWithin s op n a y with
    | .ok items => fill s r items
    | .error e => .error e
  | _ + 1, a, b =>
    match scalar s op a b with
    | .ok v => .ok (.value v)
    | .error e => .error e

def plan (s : Store) (op : BinaryOp) (a b : Value) : Except RunError Update :=
  planWithin s op s.depthBound a b

/-- Applies an operator. An array operand, the left one if both are, is changed in place and is the
    result. After an error nothing has changed. -/
def binary (s : Store) (op : BinaryOp) (a b : Value) : Except RunError (Value × Store) :=
  match plan s op a b with
  | .ok update => .ok (update.commit s)
  | .error e => .error e

/-- The new value of an assignment's target. Plain assignment ignores the current one. -/
def combine (s : Store) (op : AssignOp) (current rhs : Value) : Except RunError (Value × Store) :=
  match op.binaryOp? with
  | some op => binary s op current rhs
  | none => .ok (rhs, s)

end FlowScript.Operator
