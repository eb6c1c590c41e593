import FlowScript.Proofs.Machine.Alike
import FlowScript.Proofs.Machine.Step
import Mathlib.Data.Fintype.EquivFin

/-!
Machines that differ in what they have reported, and nothing else. Main statements: the rules by
which two computations come to the same on such machines, and that a computation which is blind to
every local variable does not look at earlier reports either.
-/
namespace FlowScript

namespace Machine

/-- The machines hold the same, whatever was reported on them. -/
structure SameButLog (m n : Machine) : Prop where
  store : m.store = n.store
  scope : m.scope = n.scope
  options : m.options = n.options
  clock : m.clock = n.clock

variable {m n : Machine}

theorem SameButLog.refl (m : Machine) : m.SameButLog m := ⟨rfl, rfl, rfl, rfl⟩

theorem SameButLog.symm (same : m.SameButLog n) : n.SameButLog m :=
  ⟨same.store.symm, same.scope.symm, same.options.symm, same.clock.symm⟩

theorem SameButLog.trans {k : Machine} (first : m.SameButLog n) (second : n.SameButLog k) :
    m.SameButLog k where
  store := first.store.trans second.store
  scope := first.scope.trans second.scope
  options := first.options.trans second.options
  clock := first.clock.trans second.clock

theorem sameButLog_report (m : Machine) (e : Event) : (m.report e).SameButLog m :=
  ⟨rfl, rfl, rfl, rfl⟩

theorem SameButLog.setScope (same : m.SameButLog n) (sc : Scope) :
    SameButLog { m with scope := sc } { n with scope := sc } :=
  ⟨same.store, rfl, same.options, same.clock⟩

theorem SameButLog.eq (same : m.SameButLog n) : n = { m with log := n.log } := by
  obtain ⟨store, scope, options, clock⟩ := same
  rw [store, scope, options, clock]

theorem SameButLog.maxIterations (same : m.SameButLog n) : m.maxIterations = n.maxIterations := by
  rw [same.eq]
  rfl

theorem Steps.options_clock (steps : m.Steps n) : n.options = m.options ∧ n.clock = m.clock := by
  induction steps with
  | refl => exact ⟨rfl, rfl⟩
  | tail _ step ih => cases step <;> exact ih

end Machine

structure SameEnd {α : Type} (p q : Except RunError α × Machine) : Prop where
  answer : p.1 = q.1
  machine : p.2.SameButLog q.2

theorem SameEnd.cases {α : Type} {p q : Except RunError α × Machine} (ended : SameEnd p q) :
    (∃ a m n, p = (.ok a, m) ∧ q = (.ok a, n) ∧ m.SameButLog n) ∨
      ∃ e m n, p = (.error e, m) ∧ q = (.error e, n) ∧ m.SameButLog n := by
  obtain ⟨r, m⟩ := p
  obtain ⟨s, n⟩ := q
  obtain ⟨answer, machine⟩ := ended
  dsimp only at answer
  subst answer
  cases r with
  | ok a => exact .inl ⟨a, m, n, rfl, rfl, machine⟩
  | error e => exact .inr ⟨e, m, n, rfl, rfl, machine⟩

namespace Eval

variable {α β : Type}

def Matches (x y : Eval α) : Prop := ∀ m n, m.SameButLog n → SameEnd (x m) (y n)

def IgnoresLog (x : Eval α) : Prop := x.Matches x

theorem Matches.bind {x y : Eval α} {f g : α → Eval β} (first : x.Matches y)
    (next : ∀ a, (f a).Matches (g a)) : (x >>= f).Matches (y >>= g) := by
  intro m n same
  rw [bind_apply, bind_apply]
  rcases (first m n same).cases with ⟨a, k, j, left, right, machine⟩ | ⟨e, k, j, left, right, machine⟩
  · rw [left, right]
    exact next a k j machine
  · rw [left, right]
    exact ⟨rfl, machine⟩

theorem Matches.orElse {x y : Eval α} {handler other : RunError → Eval α} (first : x.Matches y)
    (next : ∀ e, (handler e).Matches (other e)) : (x.orElse handler).Matches (y.orElse other) := by
  intro m n same
  unfold Eval.orElse
  rcases (first m n same).cases with ⟨a, k, j, left, right, machine⟩ | ⟨e, k, j, left, right, machine⟩
  · rw [left, right]
    exact ⟨rfl, machine⟩
  · rw [left, right]
    exact next e k j machine

theorem Matches.truth {x y : Eval Value} (first : x.Matches y) : x.truth.Matches y.truth := by
  intro m n same
  unfold Eval.truth
  rcases (first m n same).cases with ⟨v, k, j, left, right, machine⟩ | ⟨e, k, j, left, right, machine⟩
  · rw [left, right]
    exact ⟨congrArg (fun s => Except.ok (s.toBool v)) machine.store, machine⟩
  · rw [left, right]
    exact ⟨rfl, machine⟩

theorem Matches.report_left {x y : Eval α} (e : Event) (both : x.Matches y) :
    (report e >>= fun _ => x).Matches y := by
  intro m n same
  exact both _ n ((m.sameButLog_report e).trans same)

theorem Matches.report_right {x y : Eval α} (e : Event) (both : x.Matches y) :
    x.Matches (report e >>= fun _ => y) := by
  intro m n same
  exact both m _ (same.trans (n.sameButLog_report e).symm)

theorem IgnoresLog.bind {x : Eval α} {f : α → Eval β} (first : x.IgnoresLog)
    (next : ∀ a, (f a).IgnoresLog) : (x >>= f).IgnoresLog :=
  Matches.bind first next

theorem ignoresLog_of_relogged {x : Eval α}
    (relogged : ∀ m log, SameEnd (x m) (x { m with log := log })) : x.IgnoresLog := by
  intro m n same
  rw [same.eq]
  exact relogged m n.log

theorem ignoresLog_pure (a : α) : IgnoresLog (pure a) := fun _ _ same => ⟨rfl, same⟩

theorem ignoresLog_fail (e : RunError) : IgnoresLog (fail e : Eval α) := fun _ _ same => ⟨rfl, same⟩

theorem ignoresLog_ofExcept (r : Except RunError α) : IgnoresLog (ofExcept r) :=
  fun _ _ same => ⟨rfl, same⟩

theorem ignoresLog_report (e : Event) : IgnoresLog (report e) :=
  fun _ _ same => ⟨rfl, same.store, same.scope, same.options, same.clock⟩

theorem ignoresLog_store : IgnoresLog store :=
  fun _ _ same => ⟨congrArg Except.ok same.store, same⟩

theorem ignoresLog_scope : IgnoresLog scope :=
  fun _ _ same => ⟨congrArg Except.ok same.scope, same⟩

theorem ignoresLog_setScope (sc : Scope) : IgnoresLog (setScope sc) :=
  fun _ _ same => ⟨rfl, same.setScope sc⟩

theorem ignoresLog_newArray (values : List Value) : IgnoresLog (newArray values) :=
  ignoresLog_of_relogged fun _ _ => ⟨rfl, rfl, rfl, rfl, rfl⟩

theorem ignoresLog_getLocal (name : String) : IgnoresLog (getLocal name) :=
  ignoresLog_of_relogged fun _ _ => ⟨rfl, rfl, rfl, rfl, rfl⟩

theorem ignoresLog_getGlobal (name : String) : IgnoresLog (getGlobal name) :=
  ignoresLog_of_relogged fun _ _ => ⟨rfl, rfl, rfl, rfl, rfl⟩

theorem ignoresLog_readMember (object key : Value) : IgnoresLog (readMember object key) :=
  ignoresLog_of_relogged fun _ _ => ⟨rfl, rfl, rfl, rfl, rfl⟩

theorem ignoresLog_render (v : Value) : IgnoresLog (render v) :=
  ignoresLog_of_relogged fun _ _ => ⟨rfl, rfl, rfl, rfl, rfl⟩

theorem ignoresLog_binary (op : BinaryOp) (a b : Value) : IgnoresLog (binary op a b) := by
  apply ignoresLog_of_relogged
  intro m log
  unfold binary
  dsimp only
  split <;> exact ⟨rfl, rfl, rfl, rfl, rfl⟩

theorem ignoresLog_combine (op : AssignOp) (current rhs : Value) :
    IgnoresLog (combine op current rhs) := by
  apply ignoresLog_of_relogged
  intro m log
  unfold combine
  dsimp only
  split <;> exact ⟨rfl, rfl, rfl, rfl, rfl⟩

theorem ignoresLog_assignMember (object key : Value) (op : AssignOp) (rhs : Value) :
    IgnoresLog (assignMember object key op rhs) := by
  apply ignoresLog_of_relogged
  intro m log
  unfold assignMember
  dsimp only
  split <;> exact ⟨rfl, rfl, rfl, rfl, rfl⟩

theorem ignoresLog_all {xs : List (Eval α)} (each : ∀ x ∈ xs, x.IgnoresLog) :
    (all xs).IgnoresLog := by
  induction xs with
  | nil => exact ignoresLog_pure []
  | cons x rest ih =>
    rw [List.forall_mem_cons] at each
    apply each.1.bind
    intro a
    exact (ih each.2).bind fun as => ignoresLog_pure (a :: as)

end Eval

theorem Scope.exists_free (sc : Scope) : ∃ x, ∀ b ∈ sc.bindings x, b = none := by
  obtain ⟨x, free⟩ := Infinite.exists_notMem_finset (sc.frames.flatMap (·.keys)).toFinset
  refine ⟨x, ?_⟩
  intro b bound
  obtain ⟨f, listed, rfl⟩ := List.mem_map.mp bound
  apply Entries.get?_eq_none
  rw [Entries.contains_eq_false]
  intro there
  rw [List.mem_toFinset, List.mem_flatMap] at free
  exact free ⟨f, listed, there⟩

theorem Scope.without_of_free {sc : Scope} {x : String} (free : ∀ b ∈ sc.bindings x, b = none) :
    sc.without x = sc := by
  have kept (f : Frame) (listed : f ∈ sc.frames) : f.without x = f := by
    have absent : f.get? x = none := free _ (List.mem_map.mpr ⟨f, listed, rfl⟩)
    have unnamed : x ∉ f.keys := by
      rw [← Entries.contains_eq_false]
      simp [Entries.contains, absent]
    unfold Entries.without
    rw [List.filter_eq_self.mpr]
    intro p member
    simp only [decide_eq_true_eq]
    rintro rfl
    exact unnamed (List.mem_map.mpr ⟨p, member, rfl⟩)
  have outer : sc.outer.map (·.without x) = sc.outer := by
    rw [List.map_congr_left fun f listed => kept f (List.mem_cons_of_mem _ listed), List.map_id']
  unfold without
  rw [kept sc.frame (by simp [frames]), outer]

/-- Being blind to a local takes no log into account. A local that is not there at all stays so,
    and then being alike but for the local is being the same. -/
theorem Eval.ignoresLog_of_blind {α : Type} {x : Eval α} (blind : ∀ name, x.Blind name)
    (steps : ∀ m, x.StepsFrom m) : x.IgnoresLog := by
  intro m n same
  obtain ⟨name, free⟩ := m.scope.exists_free
  have alike : m.AlikeBut name n := ⟨same.store, by rw [same.scope], same.options⟩
  have twins := blind name m n alike
  have left : (x m).2.scope.without name = (x m).2.scope :=
    Scope.without_of_free (twins.left ▸ free)
  have right : (x n).2.scope.without name = (x n).2.scope :=
    Scope.without_of_free (twins.right ▸ same.scope ▸ free)
  have clock := (steps m).options_clock.2
  have clock' := (steps n).options_clock.2
  refine ⟨twins.answer, twins.alike.store, ?_, twins.alike.options, ?_⟩
  · rw [← left, ← right, twins.alike.scope]
  · rw [clock, clock', same.clock]

end FlowScript
