import FlowScript.Proofs.Evaluation.Layer
import FlowScript.Proofs.Library.Blind
import FlowScript.Proofs.Library.Stepwise
import FlowScript.Proofs.Machine.Unlogged

/-!
Evaluation does not look at what was reported before. Main statements: no standard function does, and
no expression does when no function of the library does.
-/
namespace FlowScript

namespace Function

/-- Whatever its arguments, an immediate function ignores the log; a deferred one does when the
    computations do that it gets. -/
def Body.IgnoresLog : Body → Prop
  | .immediate run | .suspending run => ∀ args, (run args).IgnoresLog
  | .deferred run =>
    ∀ args : List (Eval Value), (∀ a ∈ args, a.IgnoresLog) → (run args).IgnoresLog
  | .declared _ => True

variable {f : Function}

theorem prepare_ignoresLog (f : Function) (args : List Value) : (f.prepare args).IgnoresLog := by
  apply Eval.ignoresLog_store.bind
  intro s
  exact (Eval.ignoresLog_ofExcept _).bind fun _ => Eval.ignoresLog_ofExcept _

theorem call_ignoresLog (body : f.body.IgnoresLog) (args : List Value) :
    (f.call args).IgnoresLog := by
  unfold call
  split
  · rename_i shape
    rw [shape] at body
    exact body args
  all_goals exact Eval.ignoresLog_fail _

theorem callWaiting_ignoresLog (body : f.body.IgnoresLog) (args : List Value) :
    (f.callWaiting args).IgnoresLog := by
  unfold callWaiting
  split
  · rename_i shape
    rw [shape] at body
    exact body args
  · exact call_ignoresLog body args

theorem callDeferred_ignoresLog (body : f.body.IgnoresLog) {args : List (Eval Value)}
    (each : ∀ a ∈ args, a.IgnoresLog) : (f.callDeferred args).IgnoresLog := by
  unfold callDeferred
  split
  · rename_i shape
    rw [shape] at body
    exact body args each
  · exact Eval.ignoresLog_fail _

theorem apply_ignoresLog (body : f.body.IgnoresLog) {args : List (Eval Value)}
    (each : ∀ a ∈ args, a.IgnoresLog) : (f.apply args).IgnoresLog := by
  unfold apply
  split
  · exact (Eval.ignoresLog_ofExcept _).bind fun _ => callDeferred_ignoresLog body each
  · apply (Eval.ignoresLog_all each).bind
    intro values
    exact (prepare_ignoresLog f values).bind fun bound => call_ignoresLog body bound
  · apply (Eval.ignoresLog_all each).bind
    intro values
    exact (prepare_ignoresLog f values).bind fun bound => callWaiting_ignoresLog body bound

theorem ignoresLog_of_blind (direct : f.convention ≠ .deferred) (blind : ∀ x, f.body.Blind x)
    (stepwise : f.body.Stepwise) : f.body.IgnoresLog := by
  unfold convention at direct
  cases shape : f.body with
  | immediate run | suspending run =>
    rw [shape] at blind stepwise
    exact fun args => Eval.ignoresLog_of_blind (fun x => blind x args) fun m => stepwise m args
  | deferred run =>
    rw [shape] at direct
    exact absurd rfl direct
  | declared convention => trivial

end Function

namespace Library

def IgnoresLog (l : Library) : Prop := ∀ f ∈ l.functions, f.body.IgnoresLog

section Deferred

variable {args : List (Eval Value)} (each : ∀ a ∈ args, a.IgnoresLog)

include each in
theorem deferredArg_ignoresLog (i : Nat) : (deferredArg args i).IgnoresLog := by
  unfold deferredArg
  cases there : args[i]? with
  | none => exact Eval.ignoresLog_pure _
  | some a => exact each a (List.mem_of_getElem? there)

include each in
theorem choice_ignoresLog : (choice args).IgnoresLog := by
  apply Eval.Matches.bind (Eval.Matches.truth (deferredArg_ignoresLog each 0))
  intro holds
  cases holds with
  | true => exact deferredArg_ignoresLog each 1
  | false => exact deferredArg_ignoresLog each 2

theorem firstCase_ignoresLog : ∀ {args : List (Eval Value)}, (∀ a ∈ args, a.IgnoresLog) →
    (firstCase args).IgnoresLog
  | [], _ => Eval.ignoresLog_pure _
  | [_], _ => Eval.ignoresLog_pure _
  | condition :: result :: rest, each => by
    rw [List.forall_mem_cons, List.forall_mem_cons] at each
    apply Eval.Matches.bind (Eval.Matches.truth each.1)
    intro holds
    cases holds with
    | true => exact each.2.1
    | false => exact firstCase_ignoresLog each.2.2

include each in
theorem cases_ignoresLog : (cases args).IgnoresLog := by
  unfold cases
  split
  · exact firstCase_ignoresLog each
  · exact Eval.ignoresLog_fail _

theorem rounds_ignoresLog {condition body : Eval Value} (asked : condition.IgnoresLog)
    (done : body.IgnoresLog) (limit left : Nat) :
    (rounds limit condition body left).IgnoresLog := by
  have finished (k : Nat) :
      (do Eval.report (.loopFinished k); pure Value.null : Eval Value).IgnoresLog :=
    (Eval.ignoresLog_report _).bind fun _ => Eval.ignoresLog_pure _
  induction left with
  | zero =>
    apply Eval.Matches.bind (Eval.Matches.truth asked)
    intro holds
    cases holds with
    | true => exact Eval.ignoresLog_fail _
    | false => exact finished limit
  | succ left ih =>
    apply Eval.Matches.bind (Eval.Matches.truth asked)
    intro holds
    cases holds with
    | true => exact done.bind fun _ => ih
    | false => exact finished _

include each in
theorem loop_ignoresLog : (loop args).IgnoresLog := by
  intro m n same
  have rounds := rounds_ignoresLog (deferredArg_ignoresLog each 0) (deferredArg_ignoresLog each 1)
    m.maxIterations m.maxIterations m n same
  -- the cap is read off the machine, where both are the same
  unfold loop
  rw [Eval.bind_apply, Eval.bind_apply]
  dsimp only [Eval.machine]
  rwa [← same.maxIterations]

include each in
theorem recover_ignoresLog : (recover args).IgnoresLog := by
  apply Eval.Matches.orElse (deferredArg_ignoresLog each 0)
  intro e
  apply (Eval.ignoresLog_report _).bind
  intro _
  apply Eval.ignoresLog_scope.bind
  intro sc
  exact (Eval.ignoresLog_setScope _).bind fun _ => deferredArg_ignoresLog each 1

end Deferred

theorem control_ignoresLog : ∀ f ∈ control, f.body.IgnoresLog := by
  simp only [control, List.forall_mem_cons, List.not_mem_nil, false_implies, implies_true, and_true]
  exact ⟨fun _ => choice_ignoresLog, fun _ => cases_ignoresLog, fun _ => loop_ignoresLog,
    fun _ => recover_ignoresLog⟩

theorem textArg_ignoresLog (args : List Value) (i : Nat) : (textArg args i).IgnoresLog := by
  unfold textArg
  split
  · exact Eval.ignoresLog_render _
  · exact Eval.ignoresLog_pure _

theorem follow_ignoresLog (v : Value) (path : List Value) : (follow v path).IgnoresLog := by
  induction path generalizing v with
  | nil => exact Eval.ignoresLog_pure v
  | cons key rest ih => exact (Eval.ignoresLog_readMember v key).bind ih

theorem getByName_ignoresLog (args : List Value) : (getByName args).IgnoresLog := by
  apply (textArg_ignoresLog args 0).bind
  intro name
  dsimp only
  split
  · exact (Eval.ignoresLog_getGlobal name).bind fun v => follow_ignoresLog v _
  · exact Eval.ignoresLog_scope.bind fun sc => follow_ignoresLog _ _

theorem setByName_ignoresLog (args : List Value) : (setByName args).IgnoresLog := by
  apply (textArg_ignoresLog args 0).bind
  intro name
  dsimp only
  split
  · apply Eval.ignoresLog_scope.bind
    intro sc
    exact (Eval.ignoresLog_setScope _).bind fun _ => Eval.ignoresLog_pure _
  · have outermost : (variableNamed name).IgnoresLog := by
      unfold variableNamed
      split
      · exact Eval.ignoresLog_getGlobal name
      · exact Eval.ignoresLog_getLocal name
    apply outermost.bind
    intro v
    apply (follow_ignoresLog v _).bind
    intro container
    exact Eval.ignoresLog_assignMember container _ .assign _

theorem now_ignoresLog (millis : Bool) (args : List Value) : (now millis args).IgnoresLog := by
  intro m n same
  constructor
  · exact congrArg (fun t => Except.ok (Value.date (Date.make t millis))) same.clock
  · exact same

theorem general_ignoresLog : ∀ f ∈ general, f.body.IgnoresLog := by
  intro f listed
  by_cases named : f.name ∈ variableNames
  · have which : ∀ g ∈ general, g.name ∈ variableNames →
        g.body = .immediate getByName ∨ g.body = .immediate setByName := by
      simp [general, variableNames]
    rcases which f listed named with shape | shape
    · rw [shape]
      exact getByName_ignoresLog
    · rw [shape]
      exact setByName_ignoresLog
  · have direct : ∀ g ∈ general, g.convention ≠ .deferred := by decide
    exact Function.ignoresLog_of_blind (direct f listed) (fun _ => general_blind f listed named)
      (general_stepwise f listed)

theorem dates_ignoresLog : ∀ f ∈ dates, f.body.IgnoresLog := by
  intro f listed
  by_cases timed : f.name ∈ clockNames
  · have which : ∀ g ∈ dates, g.name ∈ clockNames → ∃ millis, g.body = .immediate (now millis) := by
      simp [dates, clockNames]
    obtain ⟨millis, shape⟩ := which f listed timed
    rw [shape]
    exact now_ignoresLog millis
  · have direct : ∀ g ∈ dates, g.convention ≠ .deferred := by decide
    exact Function.ignoresLog_of_blind (direct f listed) (fun _ => dates_blind f listed timed)
      (dates_stepwise f listed)

theorem ignoresLog_of_list {fs : List Function} (direct : ∀ f ∈ fs, f.convention ≠ .deferred)
    (blind : ∀ x, ∀ f ∈ fs, f.body.Blind x) (stepwise : ∀ f ∈ fs, f.body.Stepwise) :
    ∀ f ∈ fs, f.body.IgnoresLog :=
  fun f listed => Function.ignoresLog_of_blind (direct f listed) (fun x => blind x f listed)
    (stepwise f listed)

theorem standard_ignoresLog : standard.IgnoresLog := by
  apply forall_standard
  · exact control_ignoresLog
  · exact general_ignoresLog
  · exact ignoresLog_of_list (by decide) (fun _ => conversion_blind) conversion_stepwise
  · exact ignoresLog_of_list (by decide) (fun _ => texts_blind) texts_stepwise
  · exact ignoresLog_of_list (by decide) (fun _ => containers_blind) containers_stepwise
  · exact ignoresLog_of_list (by decide) (fun _ => arithmetic_blind) arithmetic_stepwise
  · exact dates_ignoresLog

end Library

namespace Target

theorem read_ignoresLog (t : Target) : t.read.IgnoresLog := by
  cases t with
  | localVar name => exact Eval.ignoresLog_getLocal name
  | globalVar name => exact Eval.ignoresLog_getGlobal name
  | member container key => exact Eval.ignoresLog_readMember container key

theorem current_ignoresLog (op : AssignOp) (t : Target) : (t.current op).IgnoresLog := by
  cases op with
  | assign => exact Eval.ignoresLog_pure _
  | addAssign | subtractAssign => exact read_ignoresLog t

theorem write_ignoresLog (op : AssignOp) (rhs : Value) (t : Target) :
    (t.write op rhs).IgnoresLog := by
  cases t with
  | member container key => exact Eval.ignoresLog_assignMember container key op rhs
  | localVar name | globalVar name =>
    apply (current_ignoresLog op _).bind
    intro old
    apply (Eval.ignoresLog_combine op old rhs).bind
    intro next
    apply Eval.ignoresLog_scope.bind
    intro sc
    exact (Eval.ignoresLog_setScope _).bind fun _ => Eval.ignoresLog_pure next

theorem update_ignoresLog (op : UnaryOp) (t : Target) : (t.update op).IgnoresLog := by
  apply (read_ignoresLog t).bind
  intro before
  apply (Eval.ignoresLog_ofExcept _).bind
  intro after
  exact (write_ignoresLog .assign after t).bind fun _ => Eval.ignoresLog_pure _

end Target

namespace Expr

variable {l : Library} {e : Expr} {ev : Expr → Eval Value}

theorem place_ignoresLog (known : ∀ d ∈ e.parts, (ev d).IgnoresLog) : (place ev e).IgnoresLog := by
  cases e with
  | localVar name => exact Eval.ignoresLog_pure _
  | globalVar name => exact Eval.ignoresLog_pure _
  | member object key =>
    apply (known object (by simp [parts])).bind
    intro container
    exact (known key (by simp [parts])).bind fun k => Eval.ignoresLog_pure _
  | _ => exact Eval.ignoresLog_fail _

theorem layer_ignoresLog (library : l.IgnoresLog) (known : ∀ d, Inside d e → (ev d).IgnoresLog) :
    (layer l ev e).IgnoresLog := by
  have part : ∀ d ∈ e.parts, (ev d).IgnoresLog := fun d member => known d (.single member)
  have placed : ∀ t ∈ e.parts, (place ev t).IgnoresLog := fun t member =>
    place_ignoresLog fun d inner => known d (.tail (.single inner) member)
  cases e with
  | number x => exact Eval.ignoresLog_pure _
  | text s => exact Eval.ignoresLog_pure _
  | bool b => exact Eval.ignoresLog_pure _
  | localVar name => exact Eval.ignoresLog_getLocal name
  | globalVar name => exact Eval.ignoresLog_getGlobal name
  | array items =>
    have each : ∀ c ∈ items.map ev, c.IgnoresLog := List.forall_mem_map.mpr part
    exact (Eval.ignoresLog_all each).bind fun values => Eval.ignoresLog_newArray values
  | unary op operand =>
    have adjusted (a : Adjustment) :
        (ev operand >>= fun v => Eval.ofExcept (v.adjust a)).IgnoresLog :=
      (part operand (by simp [parts])).bind fun v => Eval.ignoresLog_ofExcept _
    have updated : (place ev operand >>= fun t => t.update op).IgnoresLog :=
      (placed operand (by simp [parts])).bind fun t => Target.update_ignoresLog op t
    cases op with
    | not => exact adjusted .not
    | negative => exact adjusted .negative
    | _ => exact updated
  | binary lhs op rhs =>
    apply (part lhs (by simp [parts])).bind
    intro a
    exact (part rhs (by simp [parts])).bind fun b => Eval.ignoresLog_binary op a b
  | assign target op value =>
    apply (placed target (by simp [parts])).bind
    intro t
    exact (part value (by simp [parts])).bind fun rhs => Target.write_ignoresLog op rhs t
  | member object key =>
    apply (part object (by simp [parts])).bind
    intro o
    exact (part key (by simp [parts])).bind fun k => Eval.ignoresLog_readMember o k
  | call name args =>
    have each : ∀ c ∈ args.map ev, c.IgnoresLog := List.forall_mem_map.mpr part
    simp only [layer, callNamed]
    cases found : l.find? name with
    | none => exact Eval.ignoresLog_fail _
    | some f =>
      apply (Eval.ignoresLog_report _).bind
      intro _
      exact Function.apply_ignoresLog (library f (List.mem_of_find?_eq_some found)) each

theorem eval_ignoresLog (library : l.IgnoresLog) (e : Expr) : (e.eval l).IgnoresLog := by
  induction e using inside_wellFounded.induction with
  | h e ih =>
    rw [eval_eq_layer]
    exact layer_ignoresLog library ih

end Expr
end FlowScript
