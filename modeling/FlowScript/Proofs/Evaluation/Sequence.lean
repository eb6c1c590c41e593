import FlowScript.Proofs.Evaluation.Run
import FlowScript.Proofs.Evaluation.Unlogged

/-!
Programs in sequence. A program stops at its first failing statement and keeps the value of the one
before it. Main statement: two programs joined into one run like the first alone, if that fails, and
otherwise like the first and then the second on the machine that the first left. The two ways differ
in what they report, since a report counts the statements of its own program.
-/
namespace FlowScript.Program

/-- All statements succeed, one after the other, with these values and this machine at their end. -/
inductive Done (l : Library) (m : Machine) : Program → List Value → Machine → Prop where
  | start : Done l m [] [] m
  | more {p : Program} {vs : List Value} {k n : Machine} {e : Expr} {v : Value}
      (before : Done l m p vs k)
      (here : e.eval l (k.report (.statement p.length e.kindName)) = (.ok v, n)) :
      Done l m (p ++ [e]) (vs ++ [v]) n

def lastValue (vs : List Value) : Value := vs.getLast?.getD .null

def halted (index : Nat) (err : RunError) (m : Machine) : Machine :=
  let m := m.report (.halted m.options.label index err)
  { m with scope := m.scope.setLastError err.message }

/-- The statement after those that succeed fails, and whatever follows it is not run. -/
def HaltsAt (l : Library) (m : Machine) (p : Program) (vs : List Value) (err : RunError)
    (last : Machine) : Prop :=
  ∃ before e after k n, p = before ++ e :: after ∧ Done l m before vs k ∧
    e.eval l (k.report (.statement before.length e.kindName)) = (.error err, n) ∧
    last = halted before.length err n

/-- At least one statement of the program succeeds. -/
def SomeSucceeds (l : Library) (index : Nat) (p : Program) (m : Machine) : Prop :=
  ∃ s ∈ statementsFrom l index p m, ∃ v n, s.1.eval l s.2 = (.ok v, n)

variable {l : Library} {m n : Machine}

theorem runFrom_cons (index : Nat) (last : Value) (e : Expr) (rest : Program) (m : Machine) :
    runFrom l index last (e :: rest) m =
      match e.eval l (m.report (.statement index e.kindName)) with
      | (.ok v, n) => runFrom l (index + 1) v rest n
      | (.error err, n) => (⟨last, some err⟩, halted index err n) := rfl

theorem lastValue_concat (vs : List Value) (v : Value) : lastValue (vs ++ [v]) = v := by
  simp [lastValue]

theorem Done.goes_on {before : Program} {vs : List Value} {k : Machine}
    (done : Done l m before vs k) (rest : Program) :
    (∃ ws n, Done l m (before ++ rest) ws n ∧
      rest.runFrom l before.length (lastValue vs) k = (⟨lastValue ws, none⟩, n)) ∨
    ∃ ws err n, HaltsAt l m (before ++ rest) ws err n ∧
      rest.runFrom l before.length (lastValue vs) k = (⟨lastValue ws, some err⟩, n) := by
  induction rest generalizing before vs k with
  | nil =>
    left
    rw [List.append_nil]
    exact ⟨vs, k, done, rfl⟩
  | cons e rest ih =>
    rw [runFrom_cons]
    cases run : e.eval l (k.report (.statement before.length e.kindName)) with
    | mk r n =>
      cases r with
      | error err =>
        right
        exact ⟨vs, err, _, ⟨before, e, rest, k, n, rfl, done, run, rfl⟩, rfl⟩
      | ok v =>
        have further := ih (done.more run)
        rwa [lastValue_concat, List.length_append, List.length_singleton, List.append_assoc,
          List.singleton_append] at further

theorem run_cases (p : Program) (m : Machine) :
    (∃ vs n, Done l m p vs n ∧ p.run l m = (⟨lastValue vs, none⟩, n)) ∨
      ∃ vs err n, HaltsAt l m p vs err n ∧ p.run l m = (⟨lastValue vs, some err⟩, n) :=
  (Done.start (l := l) (m := m)).goes_on p

theorem runFrom_append (p q : Program) (index : Nat) (last : Value) (m : Machine) :
    (p ++ q).runFrom l index last m =
      match p.runFrom l index last m with
      | (⟨v, none⟩, n) => q.runFrom l (index + p.length) v n
      | (⟨v, some err⟩, n) => (⟨v, some err⟩, n) := by
  induction p generalizing index last m with
  | nil => rfl
  | cons e rest ih =>
    rw [List.cons_append, runFrom_cons, runFrom_cons]
    split
    · rw [ih, List.length_cons, Nat.add_right_comm, Nat.add_assoc]
    · rfl

theorem run_append_of_failure {p : Program} (q : Program) (failed : (p.run l m).1.error ≠ none) :
    (p ++ q).run l m = p.run l m := by
  unfold run at failed ⊢
  rw [runFrom_append]
  split
  · rename_i v n ran
    rw [ran] at failed
    exact absurd rfl failed
  · rename_i v err n ran
    rw [ran]

theorem run_append_of_success {p : Program} (q : Program) (succeeded : (p.run l m).1.error = none) :
    (p ++ q).run l m = q.runFrom l p.length (p.run l m).1.value (p.run l m).2 := by
  unfold run at succeeded ⊢
  rw [runFrom_append, Nat.zero_add]
  split
  · rename_i v n ran
    rw [ran]
  · rename_i v err n ran
    rw [ran] at succeeded
    cases succeeded

theorem sameButLog_halted (i j : Nat) (err : RunError) (same : m.SameButLog n) :
    (halted i err m).SameButLog (halted j err n) where
  store := same.store
  scope := congrArg (Scope.setLastError · err.message) same.scope
  options := same.options
  clock := same.clock

theorem someSucceeds_cons {index : Nat} {e : Expr} {rest : Program} {v : Value} {k : Machine}
    (ran : e.eval l (m.report (.statement index e.kindName)) = (.ok v, k)) :
    SomeSucceeds l index (e :: rest) m := by
  refine ⟨(e, m.report (.statement index e.kindName)), ?_, v, k, ran⟩
  exact List.mem_cons_self

theorem not_someSucceeds_of_failure {index : Nat} {e : Expr} {rest : Program} {err : RunError}
    {k : Machine} (ran : e.eval l (m.report (.statement index e.kindName)) = (.error err, k)) :
    ¬ SomeSucceeds l index (e :: rest) m := by
  rintro ⟨s, listed, v, n, succeeded⟩
  simp only [statementsFrom, ran, List.mem_singleton] at listed
  subst listed
  cases ran.symm.trans succeeded

theorem runFrom_elsewhere (library : l.IgnoresLog) (q : Program) (i j : Nat) (last other : Value)
    (same : m.SameButLog n) :
    (q.runFrom l i last m).1.error = (q.runFrom l j other n).1.error ∧
    (q.runFrom l i last m).2.SameButLog (q.runFrom l j other n).2 ∧
    (SomeSucceeds l j q n → (q.runFrom l i last m).1.value = (q.runFrom l j other n).1.value) ∧
    (¬ SomeSucceeds l j q n → (q.runFrom l i last m).1.value = last ∧
      (q.runFrom l j other n).1.value = other) := by
  induction q generalizing i j last other m n with
  | nil =>
    refine ⟨rfl, same, ?_, fun _ => ⟨rfl, rfl⟩⟩
    rintro ⟨s, listed, _⟩
    cases listed
  | cons e rest ih =>
    have started := (m.sameButLog_report (.statement i e.kindName)).trans
      (same.trans (n.sameButLog_report (.statement j e.kindName)).symm)
    rw [runFrom_cons, runFrom_cons]
    rcases (Expr.eval_ignoresLog library e _ _ started).cases with
      ⟨v, k, k', left, right, alike⟩ | ⟨err, k, k', left, right, alike⟩
    · rw [left, right]
      obtain ⟨error, machine, goes, stays⟩ := ih (i + 1) (j + 1) v v alike
      refine ⟨error, machine, ?_, fun none => absurd (someSucceeds_cons right) none⟩
      intro _
      by_cases later : SomeSucceeds l (j + 1) rest k'
      · exact goes later
      · exact (stays later).1.trans (stays later).2.symm
    · rw [left, right]
      refine ⟨rfl, sameButLog_halted i j err alike, ?_, fun _ => ⟨rfl, rfl⟩⟩
      exact fun some => absurd some (not_someSucceeds_of_failure right)

/-- No function of the library sees the log, as no standard one does. If the first program fails,
    the second adds nothing at all. If it succeeds, the two joined end as they do one after the
    other, with the value of the second if any statement of it succeeds and else with that of the
    first. A program that fails has run statements up to the failing one; its value is that of the
    last one before it, and the last error is the message of the error. -/
theorem run_in_sequence (library : l.IgnoresLog) (p q : Program) (m : Machine) :
    ((p.run l m).1.error ≠ none → (p ++ q).run l m = p.run l m) ∧
    ((p.run l m).1.error = none →
      ((p ++ q).run l m).1.error = (q.run l (p.run l m).2).1.error ∧
      ((p ++ q).run l m).2.SameButLog (q.run l (p.run l m).2).2 ∧
      (SomeSucceeds l 0 q (p.run l m).2 →
        ((p ++ q).run l m).1.value = (q.run l (p.run l m).2).1.value) ∧
      (¬ SomeSucceeds l 0 q (p.run l m).2 →
        ((p ++ q).run l m).1.value = (p.run l m).1.value)) ∧
    ∀ err, (p.run l m).1.error = some err → ∃ vs,
      HaltsAt l m p vs err (p.run l m).2 ∧ (p.run l m).1.value = lastValue vs ∧
      (p.run l m).2.scope.lastError = some err.message := by
  refine ⟨run_append_of_failure q, ?_, ?_⟩
  · intro succeeded
    rw [run_append_of_success q succeeded]
    obtain ⟨error, machine, goes, stays⟩ := runFrom_elsewhere library q p.length 0
      (p.run l m).1.value .null (Machine.SameButLog.refl (p.run l m).2)
    exact ⟨error, machine, goes, fun none => (stays none).1⟩
  · intro err failed
    rcases run_cases (l := l) p m with ⟨vs, n, _, ran⟩ | ⟨vs, other, n, halts, ran⟩
    · rw [ran] at failed
      cases failed
    · rw [ran] at failed ⊢
      cases failed
      refine ⟨vs, halts, rfl, ?_⟩
      obtain ⟨before, e, after, k, j, _, _, _, rfl⟩ := halts
      rfl

theorem run_in_sequence_unset :
    let m := Machine.initial {} ⟨⟨2024, 1, 1⟩, 0, 0⟩
    let p : Program := [.assign (.localVar "x") .assign (.text "a")]
    let q : Program := [.localVar "y", .text "b"]
    Library.standard.IgnoresLog ∧ (p.run .standard m).1.error = none ∧
      ((p ++ q).run .standard m).1.value = .text "a" ∧
      ((p ++ q).run .standard m).2.scope.lastError =
        some (RunError.uninitializedVariable "y").message := by
  intro m p q
  have succeeded : (p.run .standard m).1.error = none := rfl
  have failed : ((p ++ q).run .standard m).1.error = some (.uninitializedVariable "y") := rfl
  have whole := run_in_sequence Library.standard_ignoresLog (p ++ q) [] m
  obtain ⟨_, _, _, message⟩ := whole.2.2 _ failed
  have parts := (run_in_sequence Library.standard_ignoresLog p q m).2.1 succeeded
  refine ⟨Library.standard_ignoresLog, succeeded, parts.2.2.2 ?_, message⟩
  let started := (p.run .standard m).2.report (.statement 0 (Expr.localVar "y").kindName)
  have unset : (Expr.localVar "y").eval .standard started =
      (.error (.uninitializedVariable "y"), started) := rfl
  exact not_someSucceeds_of_failure unset

end FlowScript.Program
