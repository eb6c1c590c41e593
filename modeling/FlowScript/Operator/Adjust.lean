import FlowScript.RunError

/-!
Operators on one value. Null counts up and down from zero, and a negated boolean is minus one or
zero.
-/
namespace FlowScript.Value

def stepBy (delta : Float) (op : Adjustment) : Value → Except RunError Value
  | .number x => .ok (.number (x + delta))
  | .null => .ok (.number delta)
  | v => .error (.illegalUnaryOperation op v.valueType)

def adjust (op : Adjustment) (v : Value) : Except RunError Value :=
  match op with
  | .increment => v.stepBy 1.0 .increment
  | .decrement => v.stepBy (-1.0) .decrement
  | .not =>
    match v with
    | .bool b => .ok (.bool !b)
    | .number x => .ok (.bool !(Number.isTruthy x))
    | _ => .error (.illegalUnaryOperation .not v.valueType)
  | .negative =>
    match v with
    | .number x => .ok (.number (-x))
    | .bool b => .ok (.number (if b then -1.0 else 0.0))
    | _ => .error (.illegalUnaryOperation .negative v.valueType)

end FlowScript.Value
