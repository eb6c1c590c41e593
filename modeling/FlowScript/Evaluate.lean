import FlowScript.Function
import FlowScript.Operator.Adjust

/-!
Running expressions and programs. Evaluation recurs on the expression alone: a function that runs
its arguments itself gets them as computations.
-/
namespace FlowScript

inductive Target where
  | localVar (name : String)
  | globalVar (name : String)
  | member (container key : Value)
  deriving Repr

namespace Target

def read : Target → Eval Value
  | localVar name => Eval.getLocal name
  | globalVar name => Eval.getGlobal name
  | member container key => Eval.readMember container key

def current (op : AssignOp) (t : Target) : Eval Value :=
  match op with
  | .assign => pure .null
  | _ => t.read

def write (op : AssignOp) (rhs : Value) : Target → Eval Value
  | member container key => Eval.assignMember container key op rhs
  | localVar name => do
    let old ← (localVar name).current op
    let next ← Eval.combine op old rhs
    Eval.setScope ((← Eval.scope).setLocal name next)
    pure next
  | globalVar name => do
    let old ← (globalVar name).current op
    let next ← Eval.combine op old rhs
    Eval.setScope ((← Eval.scope).setGlobal name next)
    pure next

/-- Stores the value one up or down. The result is the value after or before that. -/
def update (op : UnaryOp) (t : Target) : Eval Value := do
  let before ← t.read
  let adjustment : Adjustment :=
    match op with
    | .preIncrement | .postIncrement => .increment
    | _ => .decrement
  let after ← Eval.ofExcept (before.adjust adjustment)
  let _ ← t.write .assign after
  pure (if op.standsBefore then after else before)

end Target

namespace Expr

def callNamed (l : Library) (name : String) (args : List (Eval Value)) : Eval Value :=
  match l.find? name with
  | none => .fail (.unknownFunction name)
  | some f => do
    Eval.report (.calling name args.length)
    f.apply args

mutual

def eval (l : Library) : Expr → Eval Value
  | number x => pure (.number x)
  | text s => pure (.text s)
  | bool b => pure (.bool b)
  | localVar name => Eval.getLocal name
  | globalVar name => Eval.getGlobal name
  | array items => do
    let values ← Eval.all (evalAll l items)
    Eval.newArray values
  | unary op operand =>
    match op with
    | .not => do
      let v ← eval l operand
      Eval.ofExcept (v.adjust .not)
    | .negative => do
      let v ← eval l operand
      Eval.ofExcept (v.adjust .negative)
    | update => do
      let target ← resolve l operand
      target.update update
  | binary lhs op rhs => do
    let a ← eval l lhs
    let b ← eval l rhs
    Eval.binary op a b
  | assign target op value => do
    let place ← resolve l target
    let rhs ← eval l value
    place.write op rhs
  | member object key => do
    let o ← eval l object
    let k ← eval l key
    Eval.readMember o k
  | call name args => callNamed l name (evalAll l args)

def evalAll (l : Library) : List Expr → List (Eval Value)
  | [] => []
  | e :: rest => eval l e :: evalAll l rest

def resolve (l : Library) : Expr → Eval Target
  | localVar name => pure (.localVar name)
  | globalVar name => pure (.globalVar name)
  | member object key => do
    let container ← eval l object
    let k ← eval l key
    pure (.member container k)
  | e => .fail (.invalidAssignmentTarget e.kindName)

end

end Expr

/-- How a program ended. After an error the value is that of the last statement before it. -/
structure Outcome where
  value : Value
  error : Option RunError
  deriving Repr

namespace Program

def runFrom (l : Library) (index : Nat) (last : Value) : Program → Machine → Outcome × Machine
  | [], m => (⟨last, none⟩, m)
  | e :: rest, m =>
    match e.eval l (m.report (.statement index e.kindName)) with
    | (.ok v, m) => runFrom l (index + 1) v rest m
    | (.error err, m) =>
      let m := m.report (.halted m.options.label index err)
      (⟨last, some err⟩, { m with scope := m.scope.setLastError err.message })

def run (l : Library) (p : Program) (m : Machine) : Outcome × Machine := p.runFrom l 0 .null m

end Program
end FlowScript
