import FlowScript.Library.Standard
import FlowScript.Proofs.Machine.Step

/-!
The functions of the standard library as steps. Many of them only look at the machine. Main
statement: every function is made of steps when its arguments are, and asks for nothing but its
arguments.
-/
namespace FlowScript

namespace Function

/-- Whatever its arguments, an immediate function takes steps; a deferred one takes steps between
    the evaluations of its arguments. -/
def Body.Stepwise : Body → Prop
  | .immediate run | .suspending run => ∀ m args, (run args).StepsFrom m
  | .deferred run =>
    ∀ (allowed : Expr → Prop) (base : Expr → Eval Value) (es : List Expr),
      (∀ e ∈ es, ∀ n, Asking.StepsThrough allowed base n fun ev => ev e) →
      ∀ m, Asking.StepsThrough allowed base m fun ev => run (es.map ev)
  | .declared _ => True

theorem Body.stepwise_of_still {run : List Value → Eval Value} (still : ∀ args, (run args).Still) :
    (Body.immediate run).Stepwise :=
  fun m args => (still args).steps m

variable {f : Function} {m : Machine}

theorem prepare_still (f : Function) (args : List Value) : (f.prepare args).Still :=
  Eval.still_store.bind fun _ => (Eval.still_ofExcept _).bind fun _ => Eval.still_ofExcept _

theorem call_steps (body : f.body.Stepwise) (args : List Value) : (f.call args).StepsFrom m := by
  unfold call
  split
  · rename_i shape
    rw [shape] at body
    exact body m args
  all_goals exact (Eval.still_fail _).steps m

theorem callWaiting_steps (body : f.body.Stepwise) (args : List Value) :
    (f.callWaiting args).StepsFrom m := by
  unfold callWaiting
  split
  · rename_i shape
    rw [shape] at body
    exact body m args
  · exact call_steps body args

variable {allowed : Expr → Prop} {base : Expr → Eval Value} {es : List Expr}

theorem callDeferred_through (body : f.body.Stepwise)
    (each : ∀ e ∈ es, ∀ n, Asking.StepsThrough allowed base n fun ev => ev e) :
    Asking.StepsThrough allowed base m fun ev => f.callDeferred (es.map ev) := by
  unfold callDeferred
  split
  · rename_i shape
    rw [shape] at body
    exact body allowed base es each m
  · exact Asking.through_of_steps ((Eval.still_fail _).steps m)

theorem apply_through (body : f.body.Stepwise)
    (each : ∀ e ∈ es, ∀ n, Asking.StepsThrough allowed base n fun ev => ev e) :
    Asking.StepsThrough allowed base m fun ev => f.apply (es.map ev) := by
  unfold apply
  split
  · simp only [List.length_map]
    have checked :=
      (Eval.still_ofExcept (Signature.checkArity f.name f.signatures es.length)).steps m
    exact (Asking.through_of_steps checked).bind fun _ n _ => callDeferred_through body each
  · refine (Asking.through_all each m).bind fun values n _ => Asking.through_of_steps ?_
    exact (prepare_still f values).bind_steps fun bound => call_steps body bound
  · refine (Asking.through_all each m).bind fun values n _ => Asking.through_of_steps ?_
    exact (prepare_still f values).bind_steps fun bound => callWaiting_steps body bound

end Function

namespace Library

variable {m : Machine}

theorem textArg_still (args : List Value) (i : Nat) : (textArg args i).Still := by
  unfold textArg
  split
  · exact Eval.still_render _
  · exact Eval.still_pure _

theorem onText_still (f : List Char → List Char) (args : List Value) : (onText f args).Still :=
  (textArg_still args 0).bind fun _ => Eval.still_pure _

theorem dictionaryArg_still (function : String) (args : List Value) :
    (dictionaryArg function args).Still := by
  unfold dictionaryArg
  split
  · exact Eval.still_pure _
  · exact Eval.still_fail _

theorem keyArg_still (args : List Value) : (keyArg args).Still := Eval.still_ofExcept _

theorem dateArg_still (function : String) (args : List Value) (i : Nat) :
    (dateArg function args i).Still := by
  unfold dateArg
  split
  · exact Eval.still_pure _
  · split
    · exact Eval.still_pure _
    · exact Eval.still_fail _
  · exact Eval.still_fail _
  · exact Eval.still_fail _

theorem follow_still (v : Value) (path : List Value) : (follow v path).Still := by
  induction path generalizing v with
  | nil => exact Eval.still_pure v
  | cons key rest ih => exact (Eval.still_readMember v key).bind ih

theorem formatDate_still (args : List Value) : (formatDate args).Still := by
  refine (dateArg_still _ args 0).bind fun d => (textArg_still args 1).bind fun pattern => ?_
  split
  · exact Eval.still_pure _
  · exact Eval.still_fail _

theorem addToDate_still (args : List Value) : (addToDate args).Still := by
  refine (textArg_still args 0).bind fun name => (dateArg_still _ args 2).bind fun d => ?_
  split
  · exact Eval.still_fail _
  · split
    · exact Eval.still_pure _
    · exact Eval.still_fail _

theorem conversion_stepwise : ∀ f ∈ conversion, f.body.Stepwise := by
  simp only [conversion, List.forall_mem_cons, List.not_mem_nil, false_implies, implies_true,
    and_true]
  refine ⟨?_, ?_, ?_, ?_, ?_, ?_⟩ <;> refine Function.Body.stepwise_of_still fun args => ?_
  · exact (textArg_still args 0).bind fun _ => Eval.still_pure _
  · exact Eval.still_pure _
  · exact Eval.still_pure _
  · exact Eval.still_store.bind fun _ => Eval.still_pure _
  · unfold binaryToHex
    split <;> exact Eval.still_pure _
  · refine (textArg_still args 0).bind fun text => ?_
    split
    · exact Eval.still_pure _
    · exact Eval.still_fail _

theorem arithmetic_stepwise : ∀ f ∈ arithmetic, f.body.Stepwise := by
  simp only [arithmetic, List.forall_mem_cons, List.not_mem_nil, false_implies, implies_true,
    and_true]
  refine ⟨?_, ?_, ?_, ?_, ?_, ?_⟩ <;> refine Function.Body.stepwise_of_still fun args => ?_
  · exact Eval.still_pure _
  · exact Eval.still_pure _
  · exact Eval.still_pure _
  · exact Eval.still_pure _
  · unfold modulo
    dsimp only
    split
    · exact Eval.still_fail _
    · exact Eval.still_pure _
  · exact Eval.still_pure _

theorem dates_stepwise : ∀ f ∈ dates, f.body.Stepwise := by
  simp only [dates, List.forall_mem_cons, List.not_mem_nil, false_implies, implies_true, and_true]
  refine ⟨?_, ?_, ?_, ?_, ?_⟩
  · exact Function.Body.stepwise_of_still fun _ =>
      Eval.still_machine.bind fun _ => Eval.still_pure _
  · exact Function.Body.stepwise_of_still fun _ =>
      Eval.still_machine.bind fun _ => Eval.still_pure _
  · exact Function.Body.stepwise_of_still formatDate_still
  · exact Function.Body.stepwise_of_still addToDate_still
  · exact fun m _ => (Eval.still_pure _).steps m

theorem texts_stepwise : ∀ f ∈ texts, f.body.Stepwise := by
  simp only [texts, List.forall_mem_cons, List.not_mem_nil, false_implies, implies_true, and_true]
  refine ⟨?_, ?_, ?_, ?_, ?_, ?_, ?_, ?_, ?_⟩
  · exact Function.Body.stepwise_of_still (onText_still _)
  · exact Function.Body.stepwise_of_still (onText_still _)
  · exact Function.Body.stepwise_of_still (onText_still _)
  · exact Function.Body.stepwise_of_still fun args => onText_still _ args
  · exact Function.Body.stepwise_of_still fun args => onText_still _ args
  · exact Function.Body.stepwise_of_still fun args => onText_still _ args
  · refine Function.Body.stepwise_of_still fun args => ?_
    exact (textArg_still args 1).bind fun _ =>
      (textArg_still args 2).bind fun _ => onText_still _ args
  · intro m args
    refine (textArg_still args 0).bind_steps fun text => ?_
    exact (textArg_still args 1).bind_steps fun separator => Eval.steps_newArray _
  · refine Function.Body.stepwise_of_still fun args => ?_
    exact (textArg_still args 0).bind fun _ =>
      (textArg_still args 1).bind fun _ => Eval.still_pure _

section Deferred

variable {allowed : Expr → Prop} {base : Expr → Eval Value} {es : List Expr}
  (each : ∀ e ∈ es, ∀ n, Asking.StepsThrough allowed base n fun ev => ev e)

include each in
theorem deferredArg_through (i : Nat) (m : Machine) :
    Asking.StepsThrough allowed base m fun ev => deferredArg (es.map ev) i := by
  cases there : es[i]? with
  | none =>
    simp only [deferredArg, List.getElem?_map, there, Option.map_none, Option.getD_none]
    exact Asking.through_of_steps ((Eval.still_pure _).steps m)
  | some e =>
    simp only [deferredArg, List.getElem?_map, there, Option.map_some, Option.getD_some]
    exact each e (List.mem_of_getElem? there) m

include each in
theorem choice_through (m : Machine) :
    Asking.StepsThrough allowed base m fun ev => choice (es.map ev) := by
  refine (deferredArg_through each 0 m).truth.bind fun holds n _ => ?_
  cases holds with
  | true => exact deferredArg_through each 1 n
  | false => exact deferredArg_through each 2 n

theorem firstCase_through : ∀ {es : List Expr},
    (∀ e ∈ es, ∀ n, Asking.StepsThrough allowed base n fun ev => ev e) → ∀ m,
    Asking.StepsThrough allowed base m fun ev => firstCase (es.map ev)
  | [], _, m => Asking.through_of_steps ((Eval.still_pure _).steps m)
  | [_], _, m => Asking.through_of_steps ((Eval.still_pure _).steps m)
  | condition :: result :: rest, each, m => by
    rw [List.forall_mem_cons, List.forall_mem_cons] at each
    refine (each.1 m).truth.bind fun holds n _ => ?_
    cases holds with
    | true => exact each.2.1 n
    | false => exact firstCase_through each.2.2 n

include each in
theorem cases_through (m : Machine) :
    Asking.StepsThrough allowed base m fun ev => cases (es.map ev) := by
  unfold cases
  simp only [List.length_map]
  split
  · exact firstCase_through each m
  · exact Asking.through_of_steps ((Eval.still_fail _).steps m)

include each in
theorem rounds_through (limit left : Nat) (m : Machine) :
    Asking.StepsThrough allowed base m fun ev =>
      rounds limit (deferredArg (es.map ev) 0) (deferredArg (es.map ev) 1) left := by
  have finished (k : Nat) (n : Machine) :
      (do Eval.report (.loopFinished k); pure Value.null : Eval Value).StepsFrom n :=
    (Eval.steps_report _).bind fun _ n _ => (Eval.still_pure _).steps n
  induction left generalizing m with
  | zero =>
    refine (deferredArg_through each 0 m).truth.bind fun holds n _ => Asking.through_of_steps ?_
    cases holds with
    | true => exact (Eval.still_fail _).steps n
    | false => exact finished limit n
  | succ left ih =>
    refine (deferredArg_through each 0 m).truth.bind fun holds n _ => ?_
    cases holds with
    | true => exact (deferredArg_through each 1 n).bind fun _ k _ => ih k
    | false => exact Asking.through_of_steps (finished _ n)

include each in
theorem recover_through (m : Machine) :
    Asking.StepsThrough allowed base m fun ev => recover (es.map ev) := by
  refine (deferredArg_through each 0 m).orElse fun e n _ => ?_
  refine (Asking.through_of_steps (Eval.steps_report _)).bind fun _ k _ => ?_
  have noted : (Eval.scope >>= fun sc => Eval.setScope (sc.setLastError e.message)).StepsFrom k :=
    (Machine.Step.setLastError e.message).steps
  exact (Asking.through_of_steps noted).bind fun _ j _ => deferredArg_through each 1 j

end Deferred

theorem control_stepwise : ∀ f ∈ control, f.body.Stepwise := by
  simp only [control, List.forall_mem_cons, List.not_mem_nil, false_implies, implies_true, and_true]
  refine ⟨?_, ?_, ?_, ?_⟩
  · exact fun _ _ _ each m => choice_through each m
  · exact fun _ _ _ each m => cases_through each m
  · exact fun _ _ _ each m => Asking.through_machine_bind (rounds_through each _ _ m)
  · exact fun _ _ _ each m => recover_through each m

theorem variableNamed_steps (name : String) : (variableNamed name).StepsFrom m := by
  unfold variableNamed
  split
  · exact Eval.steps_getGlobal name
  · exact (Eval.still_getLocal name).steps m

theorem getByName_steps (args : List Value) : (getByName args).StepsFrom m := by
  refine (textArg_still args 0).bind_steps fun name => ?_
  dsimp only
  split
  · exact (Eval.steps_getGlobal name).bind fun v n _ => (follow_still v _).steps n
  · exact Eval.still_scope.bind_steps fun sc => (follow_still _ _).steps m

theorem setByName_steps (args : List Value) : (setByName args).StepsFrom m := by
  refine (textArg_still args 0).bind_steps fun name => ?_
  dsimp only
  split
  · refine Eval.steps_scope_bind ?_
    have stored : (Eval.setScope (m.scope.set name (valueArg args 1))).StepsFrom m := by
      unfold Scope.set
      split
      · exact Eval.steps_setGlobal name _
      · exact Eval.steps_setLocal name _
    exact stored.bind fun _ n _ => (Eval.still_pure _).steps n
  · refine (variableNamed_steps name).bind fun outermost n _ => ?_
    refine (follow_still outermost _).bind_steps fun container => ?_
    exact Eval.steps_assignMember container _ .assign _

theorem general_stepwise : ∀ f ∈ general, f.body.Stepwise := by
  simp only [general, List.forall_mem_cons, List.not_mem_nil, false_implies, implies_true, and_true]
  refine ⟨?_, ?_, ?_, ?_, ?_, ?_, ?_, ?_, trivial⟩
  · exact Function.Body.stepwise_of_still fun _ => Eval.still_pure _
  · exact Function.Body.stepwise_of_still fun _ => Eval.still_pure _
  · exact Function.Body.stepwise_of_still fun _ => Eval.still_store.bind fun _ => Eval.still_pure _
  · exact fun m args => getByName_steps args
  · exact fun m args => setByName_steps args
  · refine Function.Body.stepwise_of_still fun args => ?_
    exact (textArg_still args 0).bind fun _ => Eval.still_fail _
  · exact Function.Body.stepwise_of_still fun _ => Eval.still_scope.bind fun _ => Eval.still_pure _
  · intro m args
    refine (textArg_still args 0).bind_steps fun message => ?_
    exact (Eval.steps_report _).bind fun _ n _ => (Eval.still_pure _).steps n

theorem addEntry_steps (args : List Value) : (addEntry args).StepsFrom m := by
  refine (dictionaryArg_still _ args).bind_steps fun h =>
    (keyArg_still args).bind_steps fun key => ?_
  refine Eval.steps_store_bind ((Eval.still_ofExcept _).bind_steps fun _ => ?_)
  have written : (Eval.setStore (m.store.setEntries h ((m.store.entries h).insert key
      (valueArg args 2)))).StepsFrom m := (Machine.Step.insert h key (valueArg args 2)).steps
  exact written.bind fun _ n _ => (Eval.still_pure _).steps n

theorem removeEntry_steps (args : List Value) : (removeEntry args).StepsFrom m := by
  refine (dictionaryArg_still _ args).bind_steps fun h =>
    (keyArg_still args).bind_steps fun key => ?_
  refine Eval.steps_store_bind ?_
  have written :
      (Eval.setStore (m.store.setEntries h ((m.store.entries h).erase key))).StepsFrom m :=
    (Machine.Step.erase h key).steps
  exact written.bind fun _ n _ => (Eval.still_pure _).steps n

theorem containers_stepwise : ∀ f ∈ containers, f.body.Stepwise := by
  simp only [containers, List.forall_mem_cons, List.not_mem_nil, false_implies, implies_true,
    and_true]
  refine ⟨?_, ?_, ?_, ?_, ?_, ?_⟩
  · exact fun m args => Eval.steps_newArray args
  · exact fun m args => Machine.Step.newDictionary.steps
  · exact fun m args => addEntry_steps args
  · refine Function.Body.stepwise_of_still fun args => ?_
    refine (dictionaryArg_still _ args).bind fun h => (keyArg_still args).bind fun key => ?_
    exact Eval.still_store.bind fun _ => Eval.still_pure _
  · intro m args
    refine (dictionaryArg_still _ args).bind_steps fun h => ?_
    exact Eval.still_store.bind_steps fun s => Eval.steps_newArray _
  · exact fun m args => removeEntry_steps args

def Stepwise (l : Library) : Prop := ∀ f ∈ l.functions, f.body.Stepwise

theorem standard_stepwise : standard.Stepwise :=
  forall_standard control_stepwise general_stepwise conversion_stepwise texts_stepwise
    containers_stepwise arithmetic_stepwise dates_stepwise

end Library
end FlowScript
