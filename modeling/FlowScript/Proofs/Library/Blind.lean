import FlowScript.Library.Standard
import FlowScript.Proofs.Machine.Alike

/-!
The functions of the standard library beside a local variable that is hidden from them. Main
statement: but for those that take the names of variables, or look at the clock, every function
neither sees nor touches the local when its arguments do not.
-/
namespace FlowScript

namespace Function

/-- Whatever its arguments, an immediate function is blind to the local; a deferred one is when the
    computations are that it gets. -/
def Body.Blind (x : String) : Body → Prop
  | .immediate run | .suspending run => ∀ args, (run args).Blind x
  | .deferred run => ∀ args : List (Eval Value), (∀ a ∈ args, a.Blind x) → (run args).Blind x
  | .declared _ => True

variable {x : String} {f : Function}

theorem prepare_blind (f : Function) (args : List Value) : (f.prepare args).Blind x :=
  Eval.blind_store.bind fun _ =>
    (Eval.blind_ofExcept _).bind fun _ => Eval.blind_ofExcept _

theorem call_blind (body : f.body.Blind x) (args : List Value) : (f.call args).Blind x := by
  unfold call
  split
  · rename_i shape
    rw [shape] at body
    exact body args
  all_goals exact Eval.blind_fail _

theorem callWaiting_blind (body : f.body.Blind x) (args : List Value) :
    (f.callWaiting args).Blind x := by
  unfold callWaiting
  split
  · rename_i shape
    rw [shape] at body
    exact body args
  · exact call_blind body args

theorem callDeferred_blind (body : f.body.Blind x) {args : List (Eval Value)}
    (each : ∀ a ∈ args, a.Blind x) : (f.callDeferred args).Blind x := by
  unfold callDeferred
  split
  · rename_i shape
    rw [shape] at body
    exact body args each
  · exact Eval.blind_fail _

theorem apply_blind (body : f.body.Blind x) {args : List (Eval Value)}
    (each : ∀ a ∈ args, a.Blind x) : (f.apply args).Blind x := by
  unfold apply
  split
  · exact (Eval.blind_ofExcept _).bind fun _ => callDeferred_blind body each
  · apply (Eval.blind_all each).bind
    intro values
    exact (prepare_blind f values).bind fun bound => call_blind body bound
  · apply (Eval.blind_all each).bind
    intro values
    exact (prepare_blind f values).bind fun bound => callWaiting_blind body bound

end Function

namespace Library

def clockNames : List String := ["Now", "Now_"]

def variableNames : List String := ["Get", "Set"]

variable {x : String}

section Deferred

variable {args : List (Eval Value)} (each : ∀ a ∈ args, a.Blind x)

include each in
theorem deferredArg_blind (i : Nat) : (deferredArg args i).Blind x := by
  unfold deferredArg
  cases there : args[i]? with
  | none => exact Eval.blind_pure _
  | some a => exact each a (List.mem_of_getElem? there)

include each in
theorem choice_blind : (choice args).Blind x := by
  apply (deferredArg_blind each 0).truth.bind
  intro holds
  cases holds with
  | true => exact deferredArg_blind each 1
  | false => exact deferredArg_blind each 2

theorem firstCase_blind : ∀ {args : List (Eval Value)}, (∀ a ∈ args, a.Blind x) →
    (firstCase args).Blind x
  | [], _ => Eval.blind_pure _
  | [_], _ => Eval.blind_pure _
  | condition :: result :: rest, each => by
    rw [List.forall_mem_cons, List.forall_mem_cons] at each
    apply each.1.truth.bind
    intro holds
    cases holds with
    | true => exact each.2.1
    | false => exact firstCase_blind each.2.2

include each in
theorem cases_blind : (cases args).Blind x := by
  unfold cases
  split
  · exact firstCase_blind each
  · exact Eval.blind_fail _

theorem rounds_blind {condition body : Eval Value} (seen : condition.Blind x) (done : body.Blind x)
    (limit left : Nat) : (rounds limit condition body left).Blind x := by
  have finished (k : Nat) :
      (do Eval.report (.loopFinished k); pure Value.null : Eval Value).Blind x :=
    (Eval.blind_report _).bind fun _ => Eval.blind_pure _
  induction left with
  | zero =>
    apply seen.truth.bind
    intro holds
    cases holds with
    | true => exact Eval.blind_fail _
    | false => exact finished limit
  | succ left ih =>
    apply seen.truth.bind
    intro holds
    cases holds with
    | true => exact done.bind fun _ => ih
    | false => exact finished _

include each in
theorem loop_blind : (loop args).Blind x := by
  intro m n
  apply Eval.inStep_machine_bind
  intro alike
  -- both machines allow the same number of rounds
  rw [alike.maxIterations]
  exact rounds_blind (deferredArg_blind each 0) (deferredArg_blind each 1) _ _ m n alike

include each in
theorem recover_blind : (recover args).Blind x := by
  apply (deferredArg_blind each 0).orElse
  intro e
  apply (Eval.blind_report _).bind
  intro _ m n
  apply Eval.inStep_scope_bind
  exact (Eval.inStep_setLastError e.message).bind fun _ => deferredArg_blind each 1

end Deferred

theorem control_blind : ∀ f ∈ control, f.body.Blind x := by
  simp only [control, List.forall_mem_cons, List.not_mem_nil, false_implies, implies_true, and_true]
  exact ⟨fun _ => choice_blind, fun _ => cases_blind, fun _ => loop_blind, fun _ => recover_blind⟩

theorem textArg_blind (args : List Value) (i : Nat) : (textArg args i).Blind x := by
  unfold textArg
  split
  · exact Eval.blind_render _
  · exact Eval.blind_pure _

theorem lastError_blind (args : List Value) : (lastError args).Blind x := by
  intro m n
  apply Eval.inStep_scope_bind
  intro alike
  rw [alike.lastError]
  exact Eval.blind_pure _ m n alike

theorem general_blind : ∀ f ∈ general, f.name ∉ variableNames → f.body.Blind x := by
  simp only [general, List.forall_mem_cons, List.not_mem_nil, false_implies, implies_true, and_true]
  refine ⟨?_, ?_, ?_, ?_, ?_, ?_, ?_, ?_, ?_⟩
  · exact fun _ _ => Eval.blind_pure _
  · exact fun _ _ => Eval.blind_pure _
  · exact fun _ _ => Eval.blind_store.bind fun _ => Eval.blind_pure _
  · exact fun other => absurd (by simp [variableNames]) other
  · exact fun other => absurd (by simp [variableNames]) other
  · exact fun _ args => (textArg_blind args 0).bind fun _ => Eval.blind_fail _
  · exact fun _ args => lastError_blind args
  · intro _ args
    apply (textArg_blind args 0).bind
    intro message
    exact (Eval.blind_report _).bind fun _ => Eval.blind_pure _
  · exact fun _ => trivial

theorem conversion_blind : ∀ f ∈ conversion, f.body.Blind x := by
  simp only [conversion, List.forall_mem_cons, List.not_mem_nil, false_implies, implies_true,
    and_true]
  refine ⟨?_, ?_, ?_, ?_, ?_, ?_⟩
  · exact fun args => (textArg_blind args 0).bind fun _ => Eval.blind_pure _
  · exact fun _ => Eval.blind_pure _
  · exact fun _ => Eval.blind_pure _
  · exact fun _ => Eval.blind_store.bind fun _ => Eval.blind_pure _
  · intro args
    unfold binaryToHex
    split <;> exact Eval.blind_pure _
  · intro args
    apply (textArg_blind args 0).bind
    intro text
    split
    · exact Eval.blind_pure _
    · exact Eval.blind_fail _

theorem onText_blind (f : List Char → List Char) (args : List Value) : (onText f args).Blind x :=
  (textArg_blind args 0).bind fun _ => Eval.blind_pure _

theorem texts_blind : ∀ f ∈ texts, f.body.Blind x := by
  simp only [texts, List.forall_mem_cons, List.not_mem_nil, false_implies, implies_true, and_true]
  refine ⟨onText_blind _, onText_blind _, onText_blind _, ?_, ?_, ?_, ?_, ?_, ?_⟩
  · exact fun args => onText_blind _ args
  · exact fun args => onText_blind _ args
  · exact fun args => onText_blind _ args
  · intro args
    apply (textArg_blind args 1).bind
    intro old
    exact (textArg_blind args 2).bind fun new => onText_blind _ args
  · intro args
    apply (textArg_blind args 0).bind
    intro text
    exact (textArg_blind args 1).bind fun separator => Eval.blind_newArray _
  · intro args
    apply (textArg_blind args 0).bind
    intro text
    exact (textArg_blind args 1).bind fun needle => Eval.blind_pure _

theorem arithmetic_blind : ∀ f ∈ arithmetic, f.body.Blind x := by
  simp only [arithmetic, List.forall_mem_cons, List.not_mem_nil, false_implies, implies_true,
    and_true]
  refine ⟨?_, ?_, ?_, ?_, ?_, ?_⟩
  · exact fun _ => Eval.blind_pure _
  · exact fun _ => Eval.blind_pure _
  · exact fun _ => Eval.blind_pure _
  · exact fun _ => Eval.blind_pure _
  · intro args
    unfold modulo
    dsimp only
    split
    · exact Eval.blind_fail _
    · exact Eval.blind_pure _
  · exact fun _ => Eval.blind_pure _

theorem dateArg_blind (function : String) (args : List Value) (i : Nat) :
    (dateArg function args i).Blind x := by
  unfold dateArg
  split
  · exact Eval.blind_pure _
  · split
    · exact Eval.blind_pure _
    · exact Eval.blind_fail _
  · exact Eval.blind_fail _
  · exact Eval.blind_fail _

theorem formatDate_blind (args : List Value) : (formatDate args).Blind x := by
  apply (dateArg_blind _ args 0).bind
  intro d
  apply (textArg_blind args 1).bind
  intro pattern
  split
  · exact Eval.blind_pure _
  · exact Eval.blind_fail _

theorem addToDate_blind (args : List Value) : (addToDate args).Blind x := by
  apply (textArg_blind args 0).bind
  intro name
  apply (dateArg_blind _ args 2).bind
  intro d
  split
  · exact Eval.blind_fail _
  · split
    · exact Eval.blind_pure _
    · exact Eval.blind_fail _

theorem dates_blind : ∀ f ∈ dates, f.name ∉ clockNames → f.body.Blind x := by
  simp only [dates, List.forall_mem_cons, List.not_mem_nil, false_implies, implies_true, and_true]
  refine ⟨?_, ?_, ?_, ?_, ?_⟩
  · exact fun other => absurd (by simp [clockNames]) other
  · exact fun other => absurd (by simp [clockNames]) other
  · exact fun _ => formatDate_blind
  · exact fun _ => addToDate_blind
  · exact fun _ _ => Eval.blind_pure _

theorem dictionaryArg_blind (function : String) (args : List Value) :
    (dictionaryArg function args).Blind x := by
  unfold dictionaryArg
  split
  · exact Eval.blind_pure _
  · exact Eval.blind_fail _

theorem addEntry_blind (args : List Value) : (addEntry args).Blind x := by
  apply (dictionaryArg_blind _ args).bind
  intro h
  apply (Eval.blind_ofExcept _).bind
  intro key
  apply Eval.blind_store.bind
  intro s
  apply (Eval.blind_ofExcept _).bind
  intro _
  exact (Eval.blind_setStore _).bind fun _ => Eval.blind_pure _

theorem removeEntry_blind (args : List Value) : (removeEntry args).Blind x := by
  apply (dictionaryArg_blind _ args).bind
  intro h
  apply (Eval.blind_ofExcept _).bind
  intro key
  apply Eval.blind_store.bind
  intro s
  exact (Eval.blind_setStore _).bind fun _ => Eval.blind_pure _

theorem containers_blind : ∀ f ∈ containers, f.body.Blind x := by
  simp only [containers, List.forall_mem_cons, List.not_mem_nil, false_implies, implies_true,
    and_true]
  refine ⟨Eval.blind_newArray, fun _ => Eval.blind_newDictionary _, addEntry_blind, ?_, ?_,
    removeEntry_blind⟩
  · intro args
    apply (dictionaryArg_blind _ args).bind
    intro h
    apply (Eval.blind_ofExcept _).bind
    intro key
    exact Eval.blind_store.bind fun _ => Eval.blind_pure _
  · intro args
    apply (dictionaryArg_blind _ args).bind
    intro h
    exact Eval.blind_store.bind fun s => Eval.blind_newArray _

theorem standard_blind : ∀ f ∈ standard.functions, f.name ∉ variableNames → f.name ∉ clockNames →
    f.body.Blind x := by
  apply forall_standard
  · exact fun f listed _ _ => control_blind f listed
  · exact fun f listed named _ => general_blind f listed named
  · exact fun f listed _ _ => conversion_blind f listed
  · exact fun f listed _ _ => texts_blind f listed
  · exact fun f listed _ _ => containers_blind f listed
  · exact fun f listed _ _ => arithmetic_blind f listed
  · exact fun f listed _ timed => dates_blind f listed timed

end Library
end FlowScript
