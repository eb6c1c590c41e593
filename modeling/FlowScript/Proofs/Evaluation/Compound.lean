import FlowScript.Evaluate
import FlowScript.Library.Standard
import FlowScript.Proofs.Machine.Step
import FlowScript.Proofs.Member.Path
import FlowScript.Proofs.Scope.Frames

/-!
Compound assignments. `t op= e` reads its place after `e`, in the course of the write; `t = t op e`
reads it before `e`, as an operand, and writes what has been computed already. Main statement: the
two are the same, if `e` leaves the value of the place alone.
-/
namespace FlowScript

/-- A compound write to a place is a computation and then a plain write. The computation may have
    changed arrays in place, the container among them, but never moves the place. -/
theorem Member.assign_compound {s : Store} {object key current rhs : Value}
    {put : Value → Store → Store} {op : AssignOp} {bop : BinaryOp}
    (compound : op.binaryOp? = some bop) (place : Place s object key current put) :
    assign s object key op rhs =
      match Operator.binary s bop current rhs with
      | .error e => (.error e, s)
      | .ok (next, t) => assign t object key .assign next := by
  rw [assign_of_place place]
  simp only [Operator.combine, compound]
  cases done : Operator.binary s bop current rhs with
  | error e => rfl
  | ok computed =>
    obtain ⟨next, t⟩ := computed
    obtain ⟨_, later⟩ := place.later (Operator.binary_grows done)
    exact (assign_of_place later .assign next).symm

theorem Scope.getGlobal_of_peekGlobal {sc : Scope} {name : String} {v : Value}
    (found : sc.peekGlobal name = some v) : sc.getGlobal name = (v, sc) := by
  unfold peekGlobal at found
  split at found
  · rename_i there
    cases found
    simp only [getGlobal, there]
  · cases found

namespace Target

/-- The variable has been given the value, or the entry is there and has it. For a dictionary every
    key that has a text will do; for an array, a position that exists. -/
def Holds (m : Machine) (v : Value) : Target → Prop
  | localVar name => m.scope.local? name = some v
  | globalVar name => m.scope.peekGlobal name = some v
  | member container key => ∃ put, Member.Place m.store container key v put

variable {place : Target} {m : Machine} {v : Value}

theorem Holds.read (holds : place.Holds m v) : place.read m = (.ok v, m) := by
  cases place with
  | localVar name => exact congrArg (·, m) (Scope.getLocal_eq_ok.mpr holds)
  | globalVar name =>
    simp only [read, Eval.getGlobal, Scope.getGlobal_of_peekGlobal holds]
  | member container key => exact congrArg (·, m) (Member.read_iff.mpr holds)

theorem Holds.current {op : AssignOp} {bop : BinaryOp} (compound : op.binaryOp? = some bop)
    (holds : place.Holds m v) : place.current op m = (.ok v, m) := by
  cases op with
  | assign => cases compound
  | addAssign | subtractAssign => exact holds.read

theorem Holds.write_compound {op : AssignOp} {bop : BinaryOp} (compound : op.binaryOp? = some bop)
    (holds : place.Holds m v) (rhs : Value) :
    place.write op rhs m = (Eval.binary bop v rhs >>= fun next => place.write .assign next) m := by
  have combined : Eval.combine op v rhs = Eval.binary bop v rhs := by
    funext n
    simp only [Eval.combine, Eval.binary, Operator.combine, compound]
  cases place with
  | localVar name | globalVar name =>
    rw [write, Eval.bind_apply, holds.current compound]
    dsimp only
    rw [combined]
    rfl
  | member container key =>
    obtain ⟨put, place⟩ := holds
    change Eval.assignMember container key op rhs m = _
    rw [Eval.bind_apply, Eval.assignMember, Member.assign_compound compound place, Eval.binary]
    cases Operator.binary m.store bop v rhs with
    | error e => rfl
    | ok computed => rfl

end Target

namespace Expr

inductive Bound (m : Machine) : Expr → Value → Prop where
  | ofLocal {name : String} {v : Value} (found : m.scope.local? name = some v) :
      Bound m (.localVar name) v
  | ofGlobal {name : String} {v : Value} (found : m.scope.peekGlobal name = some v) :
      Bound m (.globalVar name) v

/-- The place that a variable names, or a member by variables for the container and the key. -/
inductive Names (m : Machine) : Expr → Target → Prop where
  | localVar (name : String) : Names m (.localVar name) (.localVar name)
  | globalVar (name : String) : Names m (.globalVar name) (.globalVar name)
  | member {c k : Expr} {container key : Value} (object : Bound m c container)
      (index : Bound m k key) : Names m (.member c k) (.member container key)

variable {l : Library} {m : Machine} {t e : Expr} {place : Target} {v : Value}

theorem Bound.eval (bound : Bound m t v) : t.eval l m = (.ok v, m) := by
  cases bound with
  | @ofLocal name _ found =>
    have holds : (Target.localVar name).Holds m v := found
    rw [Expr.eval]
    exact holds.read
  | @ofGlobal name _ found =>
    have holds : (Target.globalVar name).Holds m v := found
    rw [Expr.eval]
    exact holds.read

theorem Names.resolve (names : Names m t place) : t.resolve l m = (.ok place, m) := by
  cases names with
  | localVar | globalVar =>
    rw [Expr.resolve]
    rfl
  | member object index =>
    rw [Expr.resolve, Eval.bind_apply, object.eval]
    dsimp only
    rw [Eval.bind_apply, index.eval]
    rfl

theorem Names.eval (names : Names m t place) : t.eval l m = place.read m := by
  cases names with
  | localVar | globalVar =>
    rw [Expr.eval]
    rfl
  | member object index =>
    rw [Expr.eval, Eval.bind_apply, object.eval]
    dsimp only
    rw [Eval.bind_apply, index.eval]
    rfl

theorem Names.eval_assign (names : Names m t place) (op : AssignOp) (e : Expr) :
    (Expr.assign t op e).eval l m = (e.eval l >>= fun rhs => place.write op rhs) m := by
  rw [Expr.eval, Eval.bind_apply, names.resolve]

theorem Names.eval_binary (names : Names m t place) (holds : place.Holds m v) (op : BinaryOp)
    (e : Expr) :
    (Expr.binary t op e).eval l m = (e.eval l >>= fun rhs => Eval.binary op v rhs) m := by
  rw [Expr.eval, Eval.bind_apply, names.eval, holds.read]

/-- `t op= e` is `t = t op e`: the same value or error, and the same machine after it. The place has
    to have a value, which is the same after `e` has been evaluated; should `e` fail, nothing is
    asked. -/
theorem compound_assignment_is_its_expansion {op : AssignOp} {bop : BinaryOp}
    (compound : op.binaryOp? = some bop) (names : Names m t place) (before : place.Holds m v)
    (kept : ∀ rhs n, e.eval l m = (.ok rhs, n) → place.Holds n v) :
    (Expr.assign t op e).eval l m = (Expr.assign t .assign (.binary t bop e)).eval l m := by
  rw [names.eval_assign, names.eval_assign, Eval.bind_apply, Eval.bind_apply,
    names.eval_binary before, Eval.bind_apply]
  cases run : e.eval l m with
  | mk r n =>
    cases r with
    | error err => rfl
    | ok rhs => exact (kept rhs n run).write_compound compound rhs

def cupboard : Machine :=
  let m := Machine.initial {} ⟨⟨2024, 1, 1⟩, 0, 0⟩
  let array := (m.store.newArray [.number 1.0]).2
  { m with
    store := (array.newDictionary (Entries.empty.insert "shelf" (.array 0))).2
    scope := (m.scope.setLocal "c" (.dictionary 0)).setGlobal "$k" (.text "shelf") }

theorem compound_assignment_is_its_expansion_cupboard :
    Names cupboard (.member (.localVar "c") (.globalVar "$k"))
        (.member (.dictionary 0) (.text "shelf")) ∧
      (Target.member (.dictionary 0) (.text "shelf")).Holds cupboard (.array 0) ∧
      (Expr.assign (.member (.localVar "c") (.globalVar "$k")) .addAssign
          (.assign (.localVar "x") .assign (.number 2.0))).eval Library.standard cupboard =
        (Expr.assign (.member (.localVar "c") (.globalVar "$k")) .assign
          (.binary (.member (.localVar "c") (.globalVar "$k")) .add
            (.assign (.localVar "x") .assign (.number 2.0)))).eval Library.standard cupboard := by
  have names : Names cupboard (.member (.localVar "c") (.globalVar "$k"))
      (.member (.dictionary 0) (.text "shelf")) := .member (.ofLocal rfl) (.ofGlobal rfl)
  have before : (Target.member (.dictionary 0) (.text "shelf")).Holds cupboard (.array 0) :=
    Member.read_iff.mp rfl
  refine ⟨names, before, compound_assignment_is_its_expansion rfl names before ?_⟩
  -- the other variable is set in the scope, and the store stays as it is
  intro rhs n run
  rw [(Names.localVar "x").eval_assign] at run
  cases run
  exact before

end Expr

end FlowScript
