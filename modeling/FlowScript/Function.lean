import FlowScript.Machine
import FlowScript.Signature

/-!
Functions that scripts call, and libraries of them. An immediate function gets its arguments as
values and answers at once; a suspending one may make the caller wait; a deferred one gets the
argument expressions as computations and decides which of them run, and how often.
-/
namespace FlowScript

inductive Convention where
  | immediate | suspending | deferred
  deriving DecidableEq, Repr

namespace Function

inductive Body where
  | immediate (run : List Value → Eval Value)
  | suspending (run : List Value → Eval Value)
  | deferred (run : List (Eval Value) → Eval Value)
  | declared (convention : Convention)

end Function

structure Function where
  name : String
  signatures : List Signature
  body : Function.Body

namespace Function

def convention (f : Function) : Convention :=
  match f.body with
  | .immediate _ => .immediate
  | .suspending _ => .suspending
  | .deferred _ => .deferred
  | .declared c => c

def call (f : Function) (args : List Value) : Eval Value :=
  match f.body with
  | .immediate run => run args
  | .suspending _ | .declared .suspending => .fail (.asyncCalledSynchronously f.name)
  | .deferred _ | .declared _ => .fail (.unimplemented f.name)

def callWaiting (f : Function) (args : List Value) : Eval Value :=
  match f.body with
  | .suspending run => run args
  | _ => f.call args

def callDeferred (f : Function) (args : List (Eval Value)) : Eval Value :=
  match f.body with
  | .deferred run => run args
  | _ => .fail (.unimplemented f.name)

def prepare (f : Function) (args : List Value) : Eval (List Value) := do
  let s ← Eval.store
  let g ← Eval.ofExcept (Signature.choose f.name f.signatures args)
  Eval.ofExcept (g.bind s f.name args)

def apply (f : Function) (args : List (Eval Value)) : Eval Value :=
  match f.convention with
  | .deferred => do
    Eval.ofExcept (Signature.checkArity f.name f.signatures args.length)
    f.callDeferred args
  | .immediate => do
    let values ← Eval.all args
    let bound ← f.prepare values
    f.call bound
  | .suspending => do
    let values ← Eval.all args
    let bound ← f.prepare values
    f.callWaiting bound

def documentation (f : Function) : String :=
  "\n".intercalate (f.signatures.map fun g => f.name ++ g.text)

end Function

/-- Functions by name; of two with one name, the later counts. -/
structure Library where
  functions : List Function

namespace Library

def empty : Library := ⟨[]⟩

def find? (l : Library) (name : String) : Option Function := l.functions.find? (·.name == name)

def register (l : Library) (f : Function) : Library :=
  ⟨f :: l.functions.filter (·.name != f.name)⟩

def ofList (fs : List Function) : Library := fs.foldl register empty

def names (l : Library) : List String :=
  (l.functions.map (·.name)).mergeSort fun a b => decide (a ≤ b)

theorem mem_of_ofList {fs : List Function} {f : Function} (listed : f ∈ (ofList fs).functions) :
    f ∈ fs := by
  suffices ∀ l : Library, f ∈ (fs.foldl register l).functions → f ∈ l.functions ∨ f ∈ fs by
    simpa [empty] using this empty listed
  clear listed
  induction fs with
  | nil =>
    intro l listed
    exact .inl listed
  | cons g rest ih =>
    intro l listed
    rcases ih (l.register g) listed with earlier | later
    · rcases List.mem_cons.mp earlier with new | old
      · exact .inr (new ▸ List.mem_cons_self)
      · exact .inl (List.mem_filter.mp old).1
    · exact .inr (List.mem_cons_of_mem g later)

end Library

def numberArg (args : List Value) (i : Nat) : Float :=
  match args[i]? with
  | some v => v.toNumber
  | none => 0.0

def textArg (args : List Value) (i : Nat) : Eval String :=
  match args[i]? with
  | some v => Eval.render v
  | none => pure ""

def valueArg (args : List Value) (i : Nat) : Value := args[i]?.getD .null

def countArg (args : List Value) (i : Nat) : Nat := (numberArg args i).toUInt64.toNat

def deferredArg (args : List (Eval Value)) (i : Nat) : Eval Value := args[i]?.getD (pure .null)

end FlowScript
