import FlowScript.Machine.Event
import FlowScript.Member
import FlowScript.Scope

/-!
The state of a run, and computations on it. A computation ends with a value or an error and leaves
a state in either case.
-/
namespace FlowScript

structure Options where
  defaultIterations : Nat := 50000
  label : String := "<script>"
  deriving DecidableEq, Repr

structure Machine where
  store : Store
  scope : Scope
  options : Options
  clock : Moment
  log : Array Event
  deriving Repr

namespace Machine

def defaultReports : Array Event :=
  ((SystemVariable.all.filter (·.ignoresDefault)).map fun v => Event.ignoredDefault v.name).toArray

def initial (options : Options) (clock : Moment) : Machine :=
  ⟨.empty, .initial, options, clock, defaultReports⟩

def report (m : Machine) (e : Event) : Machine := { m with log := m.log.push e }

def maxIterations (m : Machine) : Nat :=
  match (m.scope.peekGlobal SystemVariable.maxIterations).map Value.toNumber with
  | some limit =>
    if limit.isFinite && 1.0 ≤ limit then limit.toUInt64.toNat else m.options.defaultIterations
  | none => m.options.defaultIterations

end Machine

def Eval (α : Type) : Type := Machine → Except RunError α × Machine

namespace Eval

variable {α β : Type}

@[always_inline, inline]
protected def pure (a : α) : Eval α := fun m => (.ok a, m)

@[always_inline, inline]
protected def bind (x : Eval α) (f : α → Eval β) : Eval β := fun m =>
  match x m with
  | (.ok a, m) => f a m
  | (.error e, m) => (.error e, m)

instance : Monad Eval where
  pure := Eval.pure
  bind := Eval.bind

instance : Inhabited (Eval α) := ⟨fun m => (.error .divisionByZero, m)⟩

def fail (e : RunError) : Eval α := fun m => (.error e, m)

def ofExcept (r : Except RunError α) : Eval α := fun m => (r, m)

/-- Goes on with `handler` in the state that a failure left. -/
def orElse (x : Eval α) (handler : RunError → Eval α) : Eval α := fun m =>
  match x m with
  | (.ok a, m) => (.ok a, m)
  | (.error e, m) => handler e m

def machine : Eval Machine := fun m => (.ok m, m)

def store : Eval Store := fun m => (.ok m.store, m)

def scope : Eval Scope := fun m => (.ok m.scope, m)

def setStore (s : Store) : Eval Unit := fun m => (.ok (), { m with store := s })

def setScope (sc : Scope) : Eval Unit := fun m => (.ok (), { m with scope := sc })

def report (e : Event) : Eval Unit := fun m => (.ok (), m.report e)

def newArray (values : List Value) : Eval Value := fun m =>
  let (v, s) := m.store.newArray values
  (.ok v, { m with store := s })

def newDictionary (e : Entries Value) : Eval Value := fun m =>
  let (v, s) := m.store.newDictionary e
  (.ok v, { m with store := s })

def render (v : Value) : Eval String := fun m => (.ok (m.store.render v), m)

def getGlobal (name : String) : Eval Value := fun m =>
  let (v, sc) := m.scope.getGlobal name
  (.ok v, { m with scope := sc })

def getLocal (name : String) : Eval Value := fun m => (m.scope.getLocal name, m)

def readMember (object key : Value) : Eval Value := fun m =>
  (Member.read m.store object key, m)

def combine (op : AssignOp) (current rhs : Value) : Eval Value := fun m =>
  match Operator.combine m.store op current rhs with
  | .ok (v, s) => (.ok v, { m with store := s })
  | .error e => (.error e, m)

def binary (op : BinaryOp) (a b : Value) : Eval Value := fun m =>
  match Operator.binary m.store op a b with
  | .ok (v, s) => (.ok v, { m with store := s })
  | .error e => (.error e, m)

/-- A write outside the bounds of an array is reported and yields null. -/
def assignMember (object key : Value) (op : AssignOp) (rhs : Value) : Eval Value := fun m =>
  match Member.assign m.store object key op rhs with
  | (.ok (.stored v), s) => (.ok v, { m with store := s })
  | (.ok (.outside size), s) =>
    (.ok .null, { m with store := s }.report (.ignoredWrite (s.render key) size))
  | (.error e, s) => (.error e, { m with store := s })

def truth (x : Eval Value) : Eval Bool := fun m =>
  match x m with
  | (.ok v, m) => (.ok (m.store.toBool v), m)
  | (.error e, m) => (.error e, m)

def all : List (Eval α) → Eval (List α)
  | [] => pure []
  | x :: rest => do
    let a ← x
    let as ← all rest
    pure (a :: as)

end Eval
end FlowScript
