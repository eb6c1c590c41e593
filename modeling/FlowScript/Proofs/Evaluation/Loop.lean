import FlowScript.Proofs.Evaluation.Termination

/-!
What a loop does from its first question to its last. Rounds in which the condition holds and the
body succeeds follow each other, and one of four endings comes after them. Main statement: every
loop goes through just one such course, and the cap that counts is the one on entry.
-/
namespace FlowScript.Library

section Course

variable (condition body : Eval Value)

def Round (m n : Machine) : Prop :=
  ∃ v k w, condition m = (.ok v, k) ∧ k.store.toBool v = true ∧ body k = (.ok w, n)

/-- So many rounds in a row, each on the machine that the one before left. -/
inductive Rounds : Nat → Machine → Machine → Prop where
  | none (m : Machine) : Rounds 0 m m
  | more {n : Nat} {m k j : Machine} (before : Rounds n m k) (last : Round condition body k j) :
      Rounds (n + 1) m j

inductive Ending where
  | finished
  | capped
  | conditionFailed (e : RunError)
  | bodyFailed (e : RunError)

def Ending.result (limit : Nat) : Ending → Except RunError Value
  | finished => .ok .null
  | capped => .error (.iterationLimitExceeded limit)
  | conditionFailed e => .error e
  | bodyFailed e => .error e

/-- What follows the last full round, when `done` rounds are over. -/
inductive Ends (limit done : Nat) (m : Machine) : Ending → Machine → Prop where
  | finished {v : Value} {n : Machine} (asked : condition m = (.ok v, n))
      (stops : n.store.toBool v = false) :
      Ends limit done m .finished (n.report (.loopFinished done))
  | capped {v : Value} {n : Machine} (asked : condition m = (.ok v, n))
      (holds : n.store.toBool v = true) (full : done = limit) : Ends limit done m .capped n
  | conditionFailed {e : RunError} {n : Machine} (failed : condition m = (.error e, n)) :
      Ends limit done m (.conditionFailed e) n
  | bodyFailed {v : Value} {e : RunError} {n k : Machine} (asked : condition m = (.ok v, n))
      (holds : n.store.toBool v = true) (room : done < limit) (failed : body n = (.error e, k)) :
      Ends limit done m (.bodyFailed e) k

/-- A loop that begins on the machine `m` goes round `n` times, which leaves the machine `k`, and
    ends from there. -/
structure Course (limit : Nat) (m : Machine) (n : Nat) (k : Machine) (ending : Ending)
    (last : Machine) : Prop where
  rounds : Rounds condition body n m k
  within : n ≤ limit
  ends : Ends condition body limit n k ending last

end Course

variable {condition body : Eval Value} {limit : Nat}

theorem truth_eq_ok {x : Eval Value} {m n : Machine} {b : Bool} (asked : x.truth m = (.ok b, n)) :
    ∃ v, x m = (.ok v, n) ∧ n.store.toBool v = b := by
  unfold Eval.truth at asked
  split at asked
  · rename_i v k run
    cases asked
    exact ⟨v, run, rfl⟩
  · cases asked

theorem truth_eq_error {x : Eval Value} {m n : Machine} {e : RunError}
    (asked : x.truth m = (.error e, n)) : x m = (.error e, n) := by
  unfold Eval.truth at asked
  split at asked
  · cases asked
  · rename_i run
    cases asked
    exact run

theorem Round.unique {m n k : Machine} (one : Round condition body m n)
    (other : Round condition body m k) : n = k := by
  obtain ⟨v, a, w, asked, _, ran⟩ := one
  obtain ⟨v', a', w', asked', _, ran'⟩ := other
  cases asked.symm.trans asked'
  cases ran.symm.trans ran'
  rfl

theorem Rounds.unique {n : Nat} {m k j : Machine} (one : Rounds condition body n m k)
    (other : Rounds condition body n m j) : k = j := by
  induction one generalizing j with
  | none m =>
    cases other
    rfl
  | more before last ih =>
    cases other with
    | more before' last' =>
      cases ih before'
      exact last.unique last'

theorem Rounds.earlier {n more : Nat} {m k : Machine} (rounds : Rounds condition body more m k)
    (fewer : n < more) : ∃ a b, Rounds condition body n m a ∧ Round condition body a b := by
  induction rounds with
  | none m => omega
  | @more t m k j before last ih =>
    by_cases here : n = t
    · subst here
      exact ⟨k, j, before, last⟩
    · exact ih (by omega)

theorem Ends.no_round {done : Nat} {m n k : Machine} {ending : Ending}
    (ends : Ends condition body limit done m ending n) (room : done < limit) :
    ¬ Round condition body m k := by
  rintro ⟨v, j, w, asked, holds, ran⟩
  cases ends with
  | finished asked' stops =>
    cases asked.symm.trans asked'
    exact absurd holds (by simp [stops])
  | capped _ _ full => omega
  | conditionFailed failed => cases asked.symm.trans failed
  | bodyFailed asked' _ _ failed =>
    cases asked.symm.trans asked'
    cases ran.symm.trans failed

theorem Ends.unique {done : Nat} {m n k : Machine} {ending other : Ending}
    (ends : Ends condition body limit done m ending n)
    (ends' : Ends condition body limit done m other k) : ending = other ∧ n = k := by
  cases ends <;> cases ends' <;> grind

theorem Course.not_fewer {n t : Nat} {m k j a b : Machine} {ending other : Ending}
    (one : Course condition body limit m n k ending a)
    (two : Course condition body limit m t j other b) : t ≤ n := by
  apply Nat.le_of_not_lt
  intro fewer
  obtain ⟨c, d, before, full⟩ := two.rounds.earlier fewer
  cases one.rounds.unique before
  exact one.ends.no_round (Nat.lt_of_lt_of_le fewer two.within) full

theorem Course.unique {n t : Nat} {m k j a b : Machine} {ending other : Ending}
    (one : Course condition body limit m n k ending a)
    (two : Course condition body limit m t j other b) : n = t ∧ k = j ∧ ending = other ∧ a = b := by
  have same : n = t := Nat.le_antisymm (two.not_fewer one) (one.not_fewer two)
  subst same
  cases one.rounds.unique two.rounds
  exact ⟨rfl, rfl, one.ends.unique two.ends⟩

theorem Turns.course {done asks runs : Nat} {start m : Machine}
    {result : Except RunError Value × Machine}
    (turns : Turns limit condition body done m asks runs result)
    (rounds : Rounds condition body done start m) (within : done ≤ limit) :
    ∃ n k ending last, Course condition body limit start n k ending last ∧
      result = (ending.result limit, last) := by
  induction turns with
  | unclear asked =>
    exact ⟨_, _, _, _, ⟨rounds, within, .conditionFailed (truth_eq_error asked)⟩, rfl⟩
  | «over» asked =>
    obtain ⟨v, run, stops⟩ := truth_eq_ok asked
    exact ⟨_, _, _, _, ⟨rounds, within, .finished run stops⟩, rfl⟩
  | capped asked full =>
    obtain ⟨v, run, holds⟩ := truth_eq_ok asked
    exact ⟨_, _, _, _, ⟨rounds, within, .capped run holds full⟩, rfl⟩
  | broken asked room ran =>
    obtain ⟨v, run, holds⟩ := truth_eq_ok asked
    exact ⟨_, _, _, _, ⟨rounds, within, .bodyFailed run holds room ran⟩, rfl⟩
  | again asked room ran _ ih =>
    obtain ⟨v, run, holds⟩ := truth_eq_ok asked
    exact ih (rounds.more ⟨v, _, _, run, holds, ran⟩) room

/-- A loop runs just as its cap allows, and the cap is what `maxIterations` says on entry, whatever
    the condition and the body do to it. Condition and body take turns, each on the machine that the
    other left, for `n` full rounds. Then the condition no longer holds, and the result is null; or
    it holds once more although the cap is reached, and the loop fails on its own account; or the
    condition or the body fails, and so does the loop, with the same error and at once. There is
    only one such course, so that the loop fails on its own account if and only if as many rounds as
    the cap allows are full and the condition holds after them. -/
theorem while_runs_as_its_cap_allows (condition body : Expr) (m : Machine) :
    ∃ n k ending last,
      Course (condition.eval standard) (body.eval standard) m.maxIterations
        (m.report (.calling "While" 2)) n k ending last ∧
      (Expr.call "While" [condition, body]).eval standard m =
        (ending.result m.maxIterations, last) ∧
      (∀ t j other b, Course (condition.eval standard) (body.eval standard) m.maxIterations
        (m.report (.calling "While" 2)) t j other b →
        t = n ∧ j = k ∧ other = ending ∧ b = last) ∧
      ∀ b, ending = .capped ∧ last = b ↔ ∃ j v,
        Rounds (condition.eval standard) (body.eval standard) m.maxIterations
          (m.report (.calling "While" 2)) j ∧
        condition.eval standard j = (.ok v, b) ∧ b.store.toBool v = true := by
  obtain ⟨asks, runs, _, _, turns⟩ := while_turns condition body m
  obtain ⟨n, k, ending, last, course, result⟩ := turns.course (.none _) (Nat.zero_le _)
  refine ⟨n, k, ending, last, course, result, fun t j other b two => two.unique course, ?_⟩
  intro b
  constructor
  · rintro ⟨rfl, rfl⟩
    obtain ⟨rounds, _, ends⟩ := course
    cases ends with
    | capped asked holds full => exact ⟨k, _, full ▸ rounds, asked, holds⟩
  · rintro ⟨j, v, full, asked, holds⟩
    have two : Course _ _ m.maxIterations _ m.maxIterations j .capped b :=
      ⟨full, Nat.le_refl _, .capped asked holds rfl⟩
    obtain ⟨_, _, same, same'⟩ := course.unique two
    exact ⟨same, same'⟩

end FlowScript.Library
