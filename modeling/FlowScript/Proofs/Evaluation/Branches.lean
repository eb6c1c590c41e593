import FlowScript.Proofs.Evaluation.Unlogged

/-!
Choices between many arms, each with a condition and a result. Main statement: such a choice is a
choice between the first arm and the choice between all others, so the conditions are asked in order
up to the first that holds, and the result of that arm is the only one that is worked out.
-/
namespace FlowScript

abbrev Arm := Expr × Expr

def Arm.arguments (arms : List Arm) : List Expr := arms.flatMap fun arm => [arm.1, arm.2]

namespace Library

section Decision

variable (l : Library)

/-- Every condition is asked, once and in order, and none holds. No result is worked out. -/
inductive Passes : List Arm → Machine → Machine → Prop where
  | none (m : Machine) : Passes [] m m
  | more {condition result : Expr} {rest : List Arm} {m k n : Machine} {v : Value}
      (asked : condition.eval l m = (.ok v, k)) (fails : k.store.toBool v = false)
      (later : Passes rest k n) : Passes ((condition, result) :: rest) m n

/-- An arm settles the choice. Its condition fails, or it holds and the result follows. -/
inductive Settles : Arm → Machine → Except RunError Value × Machine → Prop where
  | unclear {condition result : Expr} {m n : Machine} {e : RunError}
      (asked : condition.eval l m = (.error e, n)) : Settles (condition, result) m (.error e, n)
  | chosen {condition result : Expr} {m n : Machine} {v : Value}
      (asked : condition.eval l m = (.ok v, n)) (holds : n.store.toBool v = true) :
      Settles (condition, result) m (result.eval l n)

/-- Either no arm settles the choice, and null comes out, or the first that does. What stands after
    that arm does not matter. -/
def Decides (arms : List Arm) (m : Machine) (out : Except RunError Value × Machine) : Prop :=
  (∃ n, Passes l arms m n ∧ out = (.ok .null, n)) ∨
    ∃ before arm after k, arms = before ++ arm :: after ∧ Passes l before m k ∧ Settles l arm k out

end Decision

variable {l : Library}

theorem firstCase_arm (arm : Arm) (rest : List Arm) :
    firstCase ((Arm.arguments (arm :: rest)).map (Expr.eval l)) =
      (arm.1.eval l).truth >>= fun holds =>
        if holds then arm.2.eval l else firstCase ((Arm.arguments rest).map (Expr.eval l)) := rfl

theorem firstCase_cons (condition result : Expr) (rest : List Arm) (m : Machine) :
    firstCase ((Arm.arguments ((condition, result) :: rest)).map (Expr.eval l)) m =
      match condition.eval l m with
      | (.ok v, n) =>
        if n.store.toBool v then result.eval l n
        else firstCase ((Arm.arguments rest).map (Expr.eval l)) n
      | (.error e, n) => (.error e, n) := by
  rw [firstCase_arm, Eval.bind_apply, Eval.truth]
  cases condition.eval l m with
  | mk r n =>
    cases r with
    | error e => rfl
    | ok v => cases held : n.store.toBool v <;> simp [held]

theorem Passes.firstCase_eq {before : List Arm} {m k : Machine} (passes : Passes l before m k)
    (after : List Arm) :
    firstCase ((Arm.arguments (before ++ after)).map (Expr.eval l)) m =
      firstCase ((Arm.arguments after).map (Expr.eval l)) k := by
  induction passes with
  | none m => rfl
  | more asked fails later ih =>
    rw [List.cons_append, firstCase_cons, asked]
    simpa only [fails, Bool.false_eq_true, ↓reduceIte] using ih

theorem Settles.firstCase_eq {arm : Arm} {m : Machine} {out : Except RunError Value × Machine}
    (settles : Settles l arm m out) (after : List Arm) :
    firstCase ((Arm.arguments (arm :: after)).map (Expr.eval l)) m = out := by
  cases settles with
  | unclear asked => rw [firstCase_cons, asked]
  | chosen asked holds =>
    rw [firstCase_cons, asked]
    simp only [holds, ↓reduceIte]

theorem firstCase_decides (arms : List Arm) (m : Machine) :
    Decides l arms m (firstCase ((Arm.arguments arms).map (Expr.eval l)) m) := by
  induction arms generalizing m with
  | nil => exact .inl ⟨m, .none m, rfl⟩
  | cons arm rest ih =>
    obtain ⟨condition, result⟩ := arm
    rw [firstCase_cons]
    cases asked : condition.eval l m with
    | mk r n =>
      cases r with
      | error e => exact .inr ⟨[], _, rest, m, rfl, .none m, .unclear asked⟩
      | ok v =>
        cases held : n.store.toBool v with
        | true =>
          simp only [held, ↓reduceIte]
          exact .inr ⟨[], _, rest, m, rfl, .none m, .chosen asked held⟩
        | false =>
          simp only [held, Bool.false_eq_true, ↓reduceIte]
          rcases ih n with ⟨k, passes, same⟩ | ⟨before, arm, after, k, rfl, passes, settles⟩
          · exact .inl ⟨k, .more asked held passes, same⟩
          · exact .inr ⟨_ :: before, arm, after, k, rfl, .more asked held passes, settles⟩

theorem firstCase_eq_iff {arms : List Arm} {m : Machine} {out : Except RunError Value × Machine} :
    firstCase ((Arm.arguments arms).map (Expr.eval l)) m = out ↔ Decides l arms m out := by
  constructor
  · rintro rfl
    exact firstCase_decides arms m
  · rintro (⟨n, passes, rfl⟩ | ⟨before, arm, after, k, rfl, passes, settles⟩)
    · rw [← List.append_nil arms, passes.firstCase_eq]
      rfl
    · rw [passes.firstCase_eq, settles.firstCase_eq]

theorem find_if : standard.find? "If" = some ⟨"If",
    [.fixed [.required "condition" .bool, .required "trueResult" .any,
      (Param.required "falseResult" .any).opt]], .deferred choice⟩ := by
  rfl

theorem find_case : standard.find? "Case" = some ⟨"Case",
    [.repeating [.required "condition" .bool, .required "result" .any]], .deferred cases⟩ := by
  rfl

theorem eval_if (condition result : Expr) (other : Option Expr) :
    (Expr.call "If" (condition :: result :: other.toList)).eval standard =
      Eval.report (.calling "If" (condition :: result :: other.toList).length) >>= fun _ =>
        (condition.eval standard).truth >>= fun holds =>
          if holds then result.eval standard
          else (other.map (Expr.eval standard)).getD (pure .null) := by
  rw [Expr.eval, Expr.callNamed, find_if]
  cases other <;> rfl

theorem length_arguments (arms : List Arm) :
    (Arm.arguments arms).length = 2 * arms.length := by
  induction arms with
  | nil => rfl
  | cons arm rest ih =>
    have expanded : (Arm.arguments (arm :: rest)).length = (Arm.arguments rest).length + 2 := rfl
    rw [expanded, ih, List.length_cons]
    omega

theorem eval_case (first : Arm) (rest : List Arm) :
    (Expr.call "Case" (Arm.arguments (first :: rest))).eval standard =
      Eval.report (.calling "Case" (Arm.arguments (first :: rest)).length) >>= fun _ =>
        firstCase ((Arm.arguments (first :: rest)).map (Expr.eval standard)) := by
  have length := length_arguments (first :: rest)
  rw [List.length_cons] at length
  have enough : Signature.checkArity "Case"
      [.repeating [.required "condition" .bool, .required "result" .any]]
      (Arm.arguments (first :: rest)).length = .ok () := by
    rw [Signature.checkArity, if_pos]
    simp [Signature.acceptsCount, Signature.arity, Arity.accepts, Signature.repeating,
      Param.required]
    omega
  have even : (Arm.arguments (first :: rest)).length % 2 = 0 := by omega
  rw [Expr.eval, Expr.callNamed, find_case, Expr.evalAll_eq_map, List.length_map]
  dsimp only [Function.apply, Function.convention, Function.callDeferred, cases]
  rw [List.length_map, enough, if_pos even]
  rfl

theorem case_matches_if (first : Arm) (rest : List Arm) (other : Option Expr)
    (later : (firstCase ((Arm.arguments rest).map (Expr.eval standard))).Matches
      ((other.map (Expr.eval standard)).getD (pure .null))) :
    ((Expr.call "Case" (Arm.arguments (first :: rest))).eval standard).Matches
      ((Expr.call "If" (first.1 :: first.2 :: other.toList)).eval standard) := by
  have asked := Eval.Matches.truth (Expr.eval_ignoresLog standard_ignoresLog first.1)
  rw [eval_case, eval_if, firstCase_arm]
  apply Eval.Matches.report_left
  apply Eval.Matches.report_right
  apply asked.bind
  intro holds
  cases holds with
  | true => exact Expr.eval_ignoresLog standard_ignoresLog first.2
  | false => exact later

/-- With at least two arms, `Case` is `If` with the `Case` of all arms but the first; with one arm,
    it is `If` without another result. Both come to the same value or error and leave the same
    variables and containers, on every machine. So `Case` asks for the conditions in order, each
    once, up to the first that holds or fails, works out the result of that arm at most, and does
    nothing else. -/
theorem case_is_nested_if (first second : Arm) (rest : List Arm) (m : Machine) :
    SameEnd ((Expr.call "Case" (Arm.arguments (first :: second :: rest))).eval standard m)
      ((Expr.call "If" [first.1, first.2,
        .call "Case" (Arm.arguments (second :: rest))]).eval standard m) ∧
    SameEnd ((Expr.call "Case" [first.1, first.2]).eval standard m)
      ((Expr.call "If" [first.1, first.2]).eval standard m) ∧
    ∀ out, (Expr.call "Case" (Arm.arguments (first :: rest))).eval standard m = out ↔
      Decides standard (first :: rest)
        (m.report (.calling "Case" (Arm.arguments (first :: rest)).length)) out := by
  have same := Machine.SameButLog.refl m
  refine ⟨?_, ?_, ?_⟩
  · apply case_matches_if first (second :: rest) (some _) _ m m same
    -- the inner call makes one more report
    rw [Option.map_some, Option.getD_some, eval_case]
    apply Eval.Matches.report_right
    apply firstCase_ignoresLog
    rw [List.forall_mem_map]
    exact fun e _ => Expr.eval_ignoresLog standard_ignoresLog e
  · exact case_matches_if first [] none (Eval.ignoresLog_pure _) m m same
  · intro out
    rw [eval_case]
    exact firstCase_eq_iff

end Library
end FlowScript
