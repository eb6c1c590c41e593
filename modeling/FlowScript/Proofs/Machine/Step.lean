import FlowScript.Proofs.Evaluation.Asks

/-!
All that a run can do to a machine, as steps. Nothing is assumed of the machine: it may hold cycles,
and handles that were never given out. Main statements: the rules by which computations are made of
steps, with the evaluations that they ask for in between, and what every step does to the store.
-/
namespace FlowScript

namespace Machine

inductive Step (m : Machine) : Machine → Prop where
  | report (e : Event) : Step m (m.report e)
  | readGlobal (name : String) : Step m { m with scope := (m.scope.getGlobal name).2 }
  | setGlobal (name : String) (v : Value) : Step m { m with scope := m.scope.setGlobal name v }
  | setLocal (name : String) (v : Value) : Step m { m with scope := m.scope.setLocal name v }
  | setLastError (message : String) : Step m { m with scope := m.scope.setLastError message }
  | newArray (values : List Value) : Step m { m with store := (m.store.newArray values).2 }
  | newDictionary : Step m { m with store := (m.store.newDictionary .empty).2 }
  | insert (h : Handle) (name : String) (v : Value) :
      Step m { m with store := m.store.setEntries h ((m.store.entries h).insert name v) }
  | erase (h : Handle) (name : String) :
      Step m { m with store := m.store.setEntries h ((m.store.entries h).erase name) }
  | compute {op : BinaryOp} {a b v : Value} {s : Store}
      (done : Operator.binary m.store op a b = .ok (v, s)) : Step m { m with store := s }
  | assign (object key : Value) (op : AssignOp) (rhs : Value) :
      Step m { m with store := (Member.assign m.store object key op rhs).2 }

def Steps : Machine → Machine → Prop := Relation.ReflTransGen Step

variable {m n : Machine}

theorem Step.steps (step : m.Step n) : m.Steps n := .single step

theorem Steps.refl (m : Machine) : m.Steps m := Relation.ReflTransGen.refl

theorem Steps.trans {k : Machine} (first : m.Steps n) (second : n.Steps k) : m.Steps k :=
  Relation.ReflTransGen.trans first second

end Machine

theorem Operator.binary_grows {s t : Store} {op : BinaryOp} {a b v : Value}
    (done : Operator.binary s op a b = .ok (v, t)) : s.Grows t := by
  obtain ⟨u, _, fits, _, rfl⟩ := binary_ok done
  exact Update.commit_grows fits

theorem Operator.combine_grows {s t : Store} {op : AssignOp} {current rhs v : Value}
    (done : Operator.combine s op current rhs = .ok (v, t)) : s.Grows t := by
  unfold combine at done
  split at done
  · exact binary_grows done
  · cases done
    exact .refl s

theorem Member.assign_grows (s : Store) (object key : Value) (op : AssignOp) (rhs : Value) :
    s.Grows (assign s object key op rhs).2 := by
  rcases assign_cases s object key op rhs with ⟨e, run⟩ | ⟨h, next, t, _, _, done, run⟩ |
    ⟨current, put, next, t, place, done, run⟩
  · rw [run]
    exact .refl s
  · rw [run]
    exact Operator.combine_grows done
  · have combined := Operator.combine_grows done
    rw [run]
    split
    · exact combined
    · exact combined.trans (put_grows place next t)

namespace Machine

variable {m n : Machine}

theorem Step.grows (step : m.Step n) : m.store.Grows n.store := by
  cases step with
  | newArray values => exact Store.grows_newArray _ _
  | newDictionary => exact Store.grows_newDictionary _ _
  | insert h name v => exact Store.grows_setEntries _ _ _
  | erase h name => exact Store.grows_setEntries _ _ _
  | compute done => exact Operator.binary_grows done
  | assign object key op rhs => exact Member.assign_grows _ _ _ _ _
  | _ => exact .refl _

theorem Steps.grows (steps : m.Steps n) : m.store.Grows n.store := by
  induction steps with
  | refl => exact .refl _
  | tail _ step ih => exact ih.trans step.grows

end Machine

namespace Eval

variable {α β : Type} {m : Machine} {x : Eval α}

/-- The computation only looks. -/
def Still (x : Eval α) : Prop := ∀ m, (x m).2 = m

def StepsFrom (m : Machine) (x : Eval α) : Prop := m.Steps (x m).2

theorem still_pure (a : α) : Still (pure a) := fun _ => rfl

theorem still_fail (e : RunError) : Still (fail e : Eval α) := fun _ => rfl

theorem still_ofExcept (r : Except RunError α) : Still (ofExcept r) := fun _ => rfl

theorem still_store : Still store := fun _ => rfl

theorem still_scope : Still scope := fun _ => rfl

theorem still_machine : Still machine := fun _ => rfl

theorem still_render (v : Value) : Still (render v) := fun _ => rfl

theorem still_getLocal (name : String) : Still (getLocal name) := fun _ => rfl

theorem still_readMember (object key : Value) : Still (readMember object key) := fun _ => rfl

theorem Still.steps (still : x.Still) (m : Machine) : StepsFrom m x := by
  rw [StepsFrom, still m]
  exact .refl m

theorem StepsFrom.bind {f : α → Eval β} (first : StepsFrom m x)
    (next : ∀ a n, x m = (.ok a, n) → StepsFrom n (f a)) : StepsFrom m (x >>= f) := by
  unfold StepsFrom at first ⊢
  rw [bind_apply]
  cases run : x m with
  | mk r n =>
    rw [run] at first
    cases r with
    | error e => exact first
    | ok a => exact first.trans (next a n run)

theorem Still.bind {f : α → Eval β} (first : x.Still) (next : ∀ a, (f a).Still) :
    (x >>= f).Still := by
  intro m
  have same := first m
  rw [bind_apply]
  cases run : x m with
  | mk r n =>
    rw [run] at same
    subst same
    cases r with
    | error e => rfl
    | ok a => exact next a n

theorem Still.bind_steps {f : α → Eval β} (first : x.Still) (next : ∀ a, StepsFrom m (f a)) :
    StepsFrom m (x >>= f) := by
  refine (first.steps m).bind fun a n run => ?_
  have same := first m
  rw [run] at same
  cases same
  exact next a

theorem steps_scope_bind {f : Scope → Eval β} (next : StepsFrom m (f m.scope)) :
    StepsFrom m (scope >>= f) := next

theorem steps_store_bind {f : Store → Eval β} (next : StepsFrom m (f m.store)) :
    StepsFrom m (store >>= f) := next

theorem StepsFrom.truth {x : Eval Value} (first : StepsFrom m x) : StepsFrom m x.truth := by
  unfold StepsFrom Eval.truth at *
  cases run : x m with
  | mk r n =>
    rw [run] at first
    cases r <;> exact first

theorem StepsFrom.orElse {handler : RunError → Eval α} (first : StepsFrom m x)
    (other : ∀ e n, x m = (.error e, n) → StepsFrom n (handler e)) :
    StepsFrom m (x.orElse handler) := by
  unfold StepsFrom Eval.orElse at *
  cases run : x m with
  | mk r n =>
    rw [run] at first
    cases r with
    | ok a => exact first
    | error e => exact first.trans (other e n run)

theorem steps_report (e : Event) : StepsFrom m (report e) := (Machine.Step.report e).steps

theorem steps_getGlobal (name : String) : StepsFrom m (getGlobal name) :=
  (Machine.Step.readGlobal name).steps

theorem steps_setGlobal (name : String) (v : Value) :
    StepsFrom m (setScope (m.scope.setGlobal name v)) :=
  (Machine.Step.setGlobal name v).steps

theorem steps_setLocal (name : String) (v : Value) :
    StepsFrom m (setScope (m.scope.setLocal name v)) :=
  (Machine.Step.setLocal name v).steps

theorem steps_newArray (values : List Value) : StepsFrom m (newArray values) :=
  (Machine.Step.newArray values).steps

theorem steps_binary (op : BinaryOp) (a b : Value) : StepsFrom m (binary op a b) := by
  unfold StepsFrom binary
  split
  · rename_i done
    exact (Machine.Step.compute done).steps
  · exact .refl m

theorem steps_combine (op : AssignOp) (current rhs : Value) :
    StepsFrom m (combine op current rhs) := by
  unfold StepsFrom combine Operator.combine
  cases op.binaryOp? with
  | none => exact .refl m
  | some op => exact steps_binary op current rhs

theorem steps_assignMember (object key : Value) (op : AssignOp) (rhs : Value) :
    StepsFrom m (assignMember object key op rhs) := by
  have written := (Machine.Step.assign (m := m) object key op rhs).steps
  unfold StepsFrom assignMember
  split
  · rename_i run
    rwa [run] at written
  · rename_i run
    rw [run] at written
    exact written.trans (Machine.Step.report _).steps
  · rename_i run
    rwa [run] at written

end Eval

namespace Asking

variable {α β : Type} {allowed : Expr → Prop} {base : Expr → Eval Value} {m : Machine}
  {x : Asking α}

/-- The evaluation is of an allowed expression and lies on the way from `start` to `stop`. -/
def Between (allowed : Expr → Prop) (base : Expr → Eval Value) (start stop : Machine)
    (p : Expr × Machine) : Prop :=
  allowed p.1 ∧ start.Steps p.2 ∧ (base p.1 p.2).2.Steps stop

theorem between_append {asked later : List (Expr × Machine)} {middle stop : Machine}
    (reached : m.Steps middle) (rest : middle.Steps stop)
    (first : ∀ p ∈ asked, Between allowed base m middle p)
    (second : ∀ p ∈ later, Between allowed base middle stop p) :
    ∀ p ∈ asked ++ later, Between allowed base m stop p := by
  refine List.forall_mem_append.mpr ⟨?_, ?_⟩
  · intro p listed
    obtain ⟨member, before, after⟩ := first p listed
    exact ⟨member, before, after.trans rest⟩
  · intro p listed
    obtain ⟨member, before, after⟩ := second p listed
    exact ⟨member, reached.trans before, after⟩

/-- The computation is made of steps, with the evaluations that it asks for in between. -/
structure StepsThrough (allowed : Expr → Prop) (base : Expr → Eval Value) (m : Machine)
    (x : Asking α) : Prop where
  steps : (x base).StepsFrom m
  asks : ∃ asked, AsksOnly base m x asked ∧ ∀ p ∈ asked, Between allowed base m (x base m).2 p

theorem through_of_steps {y : Eval α} (steps : y.StepsFrom m) :
    StepsThrough allowed base m fun _ => y where
  steps := steps
  asks := ⟨[], fun _ _ => rfl, by simp⟩

theorem through_ask {e : Expr} (member : allowed e) (steps : (base e).StepsFrom m) :
    StepsThrough allowed base m fun ev => ev e where
  steps := steps
  asks := by
    refine ⟨[(e, m)], fun ev agrees => agrees (e, m) (by simp), ?_⟩
    simpa using ⟨member, .refl m, .refl _⟩

theorem StepsThrough.bind {f : α → Asking β} (first : StepsThrough allowed base m x)
    (next : ∀ a n, x base m = (.ok a, n) → StepsThrough allowed base n (f a)) :
    StepsThrough allowed base m fun ev => x ev >>= fun a => f a ev where
  steps := first.steps.bind fun a n run => (next a n run).steps
  asks := by
    obtain ⟨asked, only, between⟩ := first.asks
    have reached := first.steps
    unfold Eval.StepsFrom at reached
    cases run : x base m with
    | mk r n =>
      rw [run] at between reached
      cases r with
      | error e =>
        have ends : ((x base >>= fun a => f a base) m).2 = n := by rw [Eval.bind_apply, run]
        refine ⟨asked ++ [], asksOnly_bind only (by simp [run]), ?_⟩
        simpa only [ends, List.append_nil] using between
      | ok a =>
        have ends : ((x base >>= fun a => f a base) m).2 = (f a base n).2 := by
          rw [Eval.bind_apply, run]
        obtain ⟨later, only', between'⟩ := (next a n run).asks
        refine ⟨asked ++ later, asksOnly_bind only ?_, ?_⟩
        · intro b k same
          rw [run] at same
          cases same
          exact only'
        · rw [ends]
          exact between_append reached (next a n run).steps between between'

theorem StepsThrough.orElse {handler : RunError → Asking α} (first : StepsThrough allowed base m x)
    (other : ∀ e n, x base m = (.error e, n) → StepsThrough allowed base n (handler e)) :
    StepsThrough allowed base m fun ev => (x ev).orElse fun e => handler e ev where
  steps := first.steps.orElse fun e n run => (other e n run).steps
  asks := by
    obtain ⟨asked, only, between⟩ := first.asks
    have reached := first.steps
    unfold Eval.StepsFrom at reached
    cases run : x base m with
    | mk r n =>
      rw [run] at between reached
      cases r with
      | ok a =>
        have ends : (((x base).orElse fun e => handler e base) m).2 = n := by
          unfold Eval.orElse
          rw [run]
        refine ⟨asked ++ [], asksOnly_orElse only (by simp [run]), ?_⟩
        simpa only [ends, List.append_nil] using between
      | error e =>
        have ends : (((x base).orElse fun e => handler e base) m).2 = (handler e base n).2 := by
          unfold Eval.orElse
          rw [run]
        obtain ⟨later, only', between'⟩ := (other e n run).asks
        refine ⟨asked ++ later, asksOnly_orElse only ?_, ?_⟩
        · intro d k same
          rw [run] at same
          cases same
          exact only'
        · rw [ends]
          exact between_append reached (other e n run).steps between between'

theorem StepsThrough.truth {x : Asking Value} (first : StepsThrough allowed base m x) :
    StepsThrough allowed base m fun ev => (x ev).truth where
  steps := first.steps.truth
  asks := by
    obtain ⟨asked, only, between⟩ := first.asks
    have ends : ((x base).truth m).2 = (x base m).2 := by
      unfold Eval.truth
      cases x base m with
      | mk r n => cases r <;> rfl
    exact ⟨asked, asksOnly_truth only, by simpa only [ends] using between⟩

theorem through_machine_bind {f : Machine → Asking α} (next : StepsThrough allowed base m (f m)) :
    StepsThrough allowed base m fun ev => Eval.machine >>= fun n => f n ev :=
  ⟨next.steps, next.asks⟩

theorem through_all {es : List Expr}
    (each : ∀ e ∈ es, ∀ n, StepsThrough allowed base n fun ev => ev e) (m : Machine) :
    StepsThrough allowed base m fun ev => Eval.all (es.map ev) := by
  induction es generalizing m with
  | nil => exact through_of_steps ((Eval.still_pure _).steps m)
  | cons e rest ih =>
    rw [List.forall_mem_cons] at each
    refine (each.1 m).bind fun v n _ => (ih each.2 n).bind fun vs k _ => ?_
    exact through_of_steps ((Eval.still_pure _).steps k)

end Asking
end FlowScript
