import FlowScript.Proofs.Evaluation.Run

/-!
Why every run ends. Evaluation goes to strict sub-expressions, a loop goes round at most as often as
the cap said when it began, and the walks through the store go down it. Main statement: all of this
at every evaluation of every program, on a machine whose containers are acyclic.
-/
namespace FlowScript

namespace Library

/-- A loop that has gone round `done` times goes on from a machine: it asks for its condition and
    runs its body as often as the two counts say and ends as the last argument says. -/
inductive Turns (limit : Nat) (condition body : Eval Value) :
    (done : Nat) → Machine → (asks runs : Nat) → Except RunError Value × Machine → Prop where
  | unclear {done : Nat} {m n : Machine} {e : RunError}
      (asked : condition.truth m = (.error e, n)) :
      Turns limit condition body done m 1 0 (.error e, n)
  | over {done : Nat} {m n : Machine} (asked : condition.truth m = (.ok false, n)) :
      Turns limit condition body done m 1 0 (.ok .null, n.report (.loopFinished done))
  | capped {done : Nat} {m n : Machine} (asked : condition.truth m = (.ok true, n))
      (full : done = limit) :
      Turns limit condition body done m 1 0 (.error (.iterationLimitExceeded limit), n)
  | broken {done : Nat} {m n k : Machine} {e : RunError}
      (asked : condition.truth m = (.ok true, n)) (room : done < limit)
      (ran : body n = (.error e, k)) : Turns limit condition body done m 1 1 (.error e, k)
  | again {done asks runs : Nat} {m n k : Machine} {v : Value}
      {result : Except RunError Value × Machine} (asked : condition.truth m = (.ok true, n))
      (room : done < limit) (ran : body n = (.ok v, k))
      (rest : Turns limit condition body (done + 1) k asks runs result) :
      Turns limit condition body done m (asks + 1) (runs + 1) result

theorem rounds_turns (condition body : Eval Value) {limit done left : Nat}
    (count : done + left = limit) (m : Machine) :
    ∃ asks runs, asks ≤ left + 1 ∧ runs ≤ left ∧
      Turns limit condition body done m asks runs (rounds limit condition body left m) := by
  induction left generalizing done m with
  | zero =>
    refine ⟨1, 0, Nat.le_refl _, Nat.le_refl _, ?_⟩
    have full : done = limit := by omega
    rw [rounds, Eval.bind_apply]
    cases asked : condition.truth m with
    | mk r n =>
      cases r with
      | error e => exact .unclear asked
      | ok holds =>
        cases holds with
        | true => exact .capped asked full
        | false =>
          subst full
          exact .over asked
  | succ left ih =>
    have room : done < limit := by omega
    rw [rounds, Eval.bind_apply]
    cases asked : condition.truth m with
    | mk r n =>
      cases r with
      | error e => exact ⟨1, 0, by omega, by omega, .unclear asked⟩
      | ok holds =>
        cases holds with
        | false =>
          have finished : limit - (left + 1) = done := by omega
          refine ⟨1, 0, by omega, by omega, ?_⟩
          simp only [finished]
          exact .over asked
        | true =>
          simp only [↓reduceIte, Eval.bind_apply]
          cases ran : body n with
          | mk r k =>
            cases r with
            | error e => exact ⟨1, 1, by omega, by omega, .broken asked room ran⟩
            | ok v =>
              have next : done + 1 + left = limit := by omega
              obtain ⟨asks, runs, asks_bound, runs_bound, rest⟩ := ih next k
              exact ⟨asks + 1, runs + 1, by omega, by omega, .again asked room ran rest⟩

theorem find_while : standard.find? "While" = some ⟨"While",
    [.fixed [.required "condition" .bool, .required "expression" .any]], .deferred loop⟩ := by
  rfl

theorem while_turns (condition body : Expr) (m : Machine) :
    ∃ asks runs, asks ≤ m.maxIterations + 1 ∧ runs ≤ m.maxIterations ∧
      Turns m.maxIterations (condition.eval standard) (body.eval standard) 0
        (m.report (.calling "While" 2)) asks runs
        ((Expr.call "While" [condition, body]).eval standard m) := by
  have unfolded : (Expr.call "While" [condition, body]).eval standard m =
      rounds m.maxIterations (condition.eval standard) (body.eval standard) m.maxIterations
        (m.report (.calling "While" 2)) := by
    rw [Expr.eval, Expr.callNamed, find_while]
    rfl
  rw [unfolded]
  exact rounds_turns _ _ (Nat.zero_add _) _

end Library

namespace Program

theorem statementsFrom_sublist (l : Library) (index : Nat) (p : Program) (m : Machine) :
    ((statementsFrom l index p m).map (·.1)).Sublist p := by
  induction p generalizing index m with
  | nil => exact .slnil
  | cons e rest ih =>
    refine List.Sublist.cons_cons e ?_
    split
    · exact ih _ _
    · exact List.nil_sublist rest

theorem statements_sublist (l : Library) (ps : List Program) (m : Machine) :
    ((statements l ps m).map (·.1)).Sublist ps.flatten := by
  induction ps generalizing m with
  | nil => exact .slnil
  | cons p rest ih =>
    rw [statements, List.map_append, List.flatten_cons]
    exact (statementsFrom_sublist l 0 p m).append (ih _)

/-- Every expression, on every machine without cycles, has its value by a recursion that ends.
    Evaluation is the only solution of an equation that looks no further than strict
    sub-expressions; a loop asks for its condition at most once more than the cap on entry and runs
    its body at most as often as that cap; the evaluation unfolds into a finite tree, and at each
    of its nodes, before and after, every walk through the store is the only solution of a recursion
    down the store. So it is between the two halves of a compound write, and at each of the
    statements that programs come to, of which there are no more than were written down. -/
theorem evaluation_terminates {m : Machine} (closed : m.Closed) (acyclic : m.store.Acyclic)
    (e : Expr) (ps : List Program) :
    WellFounded Expr.Inside ∧
    (∀ d ev other, (∀ inner, Expr.Inside inner d → ev inner = other inner) →
      Expr.layer Library.standard ev d = Expr.layer Library.standard other d) ∧
    (∀ ev, (∀ d, ev d = Expr.layer Library.standard ev d) ↔ ev = Expr.eval Library.standard) ∧
    (∀ condition body n, ∃ asks runs, asks ≤ n.maxIterations + 1 ∧ runs ≤ n.maxIterations ∧
      Library.Turns n.maxIterations (condition.eval Library.standard)
        (body.eval Library.standard) 0 (n.report (.calling "While" 2)) asks runs
        ((Expr.call "While" [condition, body]).eval Library.standard n)) ∧
    e.Throughout Library.standard
      (fun d n => n.store.Walkable ∧ (d.eval Library.standard n).2.store.Walkable) m ∧
    (∀ n op a b, n.store.Acyclic → (Eval.combine op a b n).2.store.Walkable) ∧
    (∀ q ∈ statements Library.standard ps m, q.1.Throughout Library.standard
      (fun d n => n.store.Walkable ∧ (d.eval Library.standard n).2.store.Walkable) q.2) ∧
    ((statements Library.standard ps m).map (·.1)).Sublist ps.flatten := by
  have library := Library.standard_sound
  have sound := closed.sound acyclic
  have walkable : ∀ (d : Expr) (n : Machine), n.Sound →
      n.store.Walkable ∧ (d.eval Library.standard n).2.store.Walkable := by
    intro d n here
    have after := (Expr.eval_sound library d n here).1
    exact ⟨Store.walkable_of_acyclic here.store.acyclic,
      Store.walkable_of_acyclic after.store.acyclic⟩
  refine ⟨Expr.inside_wellFounded, fun d ev other same => Expr.layer_congr _ same,
    Expr.eval_unique _, Library.while_turns, Expr.throughout_of_sound library walkable e sound,
    ?_, ?_, statements_sublist _ ps m⟩
  · intro n op a b here
    exact Store.walkable_of_acyclic (Eval.keepsAcyclic_combine op a b n here)
  · intro q listed
    exact Expr.throughout_of_sound library walkable q.1 (statements_sound library ps sound q listed)

def overwritesCap : Expr :=
  .call "While" [.bool true, .assign (.globalVar SystemVariable.maxIterations) .addAssign (.number 1.0)]

theorem evaluation_terminates_overwritesCap :
    (hosted "a").Closed ∧ (hosted "a").store.Acyclic ∧
      overwritesCap.Throughout Library.standard (fun d n =>
        n.store.Walkable ∧ (d.eval Library.standard n).2.store.Walkable) (hosted "a") := by
  have sound := hosted_sound "a"
  refine ⟨sound.closed, sound.store.acyclic, ?_⟩
  exact (evaluation_terminates sound.closed sound.store.acyclic overwritesCap
    [[overwritesCap]]).2.2.2.2.1

end Program
end FlowScript
