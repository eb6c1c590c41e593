import FlowScript.Proofs.Evaluation.Run
import FlowScript.Proofs.Library.Stepwise

/-!
Whole runs as steps, on any machine. Every evaluation of a run lies on the way from its start to its
end, so whatever each step keeps, the run keeps between any two of its moments. Main statement: an
array has the same number of elements at every moment from its creation on.
-/
namespace FlowScript

namespace Target

variable {m : Machine}

theorem read_steps (t : Target) : t.read.StepsFrom m := by
  cases t with
  | localVar name => exact (Eval.still_getLocal name).steps m
  | globalVar name => exact Eval.steps_getGlobal name
  | member container key => exact (Eval.still_readMember container key).steps m

theorem current_steps (op : AssignOp) (t : Target) : (t.current op).StepsFrom m := by
  cases op with
  | assign => exact (Eval.still_pure _).steps m
  | addAssign => exact read_steps t
  | subtractAssign => exact read_steps t

theorem write_steps (op : AssignOp) (rhs : Value) (t : Target) : (t.write op rhs).StepsFrom m := by
  cases t with
  | member container key => exact Eval.steps_assignMember container key op rhs
  | localVar name =>
    refine (current_steps op _).bind fun old n _ => (Eval.steps_combine op old rhs).bind ?_
    intro next k _
    refine Eval.steps_scope_bind ((Eval.steps_setLocal name next).bind ?_)
    exact fun _ j _ => (Eval.still_pure next).steps j
  | globalVar name =>
    refine (current_steps op _).bind fun old n _ => (Eval.steps_combine op old rhs).bind ?_
    intro next k _
    refine Eval.steps_scope_bind ((Eval.steps_setGlobal name next).bind ?_)
    exact fun _ j _ => (Eval.still_pure next).steps j

theorem update_steps (op : UnaryOp) (t : Target) : (t.update op).StepsFrom m := by
  refine (read_steps t).bind fun before n _ => (Eval.still_ofExcept _).bind_steps fun after => ?_
  exact (write_steps .assign after t).bind fun _ k _ => (Eval.still_pure _).steps k

end Target

namespace Expr

section Through

variable {l : Library} {e : Expr} {base : Expr → Eval Value}
  (stepwise : ∀ d, Inside d e → ∀ n, (base d).StepsFrom n)

include stepwise in
theorem ask_through {d : Expr} (inside : Inside d e) (m : Machine) :
    Asking.StepsThrough (Inside · e) base m fun ev => ev d :=
  Asking.through_ask inside (stepwise d inside m)

include stepwise in
theorem place_through {t : Expr} (part : t ∈ e.parts) (m : Machine) :
    Asking.StepsThrough (Inside · e) base m fun ev => place ev t := by
  cases t with
  | localVar name => exact Asking.through_of_steps ((Eval.still_pure _).steps m)
  | globalVar name => exact Asking.through_of_steps ((Eval.still_pure _).steps m)
  | member object key =>
    have inside : ∀ d ∈ (member object key).parts, Inside d e := fun d inner =>
      .tail (.single inner) part
    refine (ask_through stepwise (inside object (by simp [parts])) m).bind fun container n _ => ?_
    refine (ask_through stepwise (inside key (by simp [parts])) n).bind fun k j _ => ?_
    exact Asking.through_of_steps ((Eval.still_pure _).steps j)
  | _ => exact Asking.through_of_steps ((Eval.still_fail _).steps m)

include stepwise in
theorem layer_through (library : l.Stepwise) (m : Machine) :
    Asking.StepsThrough (Inside · e) base m fun ev => layer l ev e := by
  have part : ∀ d ∈ e.parts, ∀ n, Asking.StepsThrough (Inside · e) base n fun ev => ev d :=
    fun d member n => ask_through stepwise (.single member) n
  cases e with
  | number x => exact Asking.through_of_steps ((Eval.still_pure _).steps m)
  | text s => exact Asking.through_of_steps ((Eval.still_pure _).steps m)
  | bool b => exact Asking.through_of_steps ((Eval.still_pure _).steps m)
  | localVar name => exact Asking.through_of_steps ((Eval.still_getLocal name).steps m)
  | globalVar name => exact Asking.through_of_steps (Eval.steps_getGlobal name)
  | array items =>
    refine (Asking.through_all part m).bind fun values n _ => ?_
    exact Asking.through_of_steps (Eval.steps_newArray values)
  | unary op operand =>
    have adjusted (a : Adjustment) : Asking.StepsThrough (Inside · (unary op operand)) base m
        fun ev => ev operand >>= fun v => Eval.ofExcept (v.adjust a) := by
      refine (part operand (by simp [parts]) m).bind fun v n _ => ?_
      exact Asking.through_of_steps ((Eval.still_ofExcept _).steps n)
    have updated : Asking.StepsThrough (Inside · (unary op operand)) base m
        fun ev => place ev operand >>= fun t => t.update op := by
      refine (place_through stepwise (t := operand) (by simp [parts]) m).bind fun t n _ => ?_
      exact Asking.through_of_steps (Target.update_steps op t)
    cases op with
    | not => exact adjusted .not
    | negative => exact adjusted .negative
    | _ => exact updated
  | binary lhs op rhs =>
    refine (part lhs (by simp [parts]) m).bind fun a n _ => ?_
    refine (part rhs (by simp [parts]) n).bind fun b k _ => ?_
    exact Asking.through_of_steps (Eval.steps_binary op a b)
  | assign target op value =>
    refine (place_through stepwise (t := target) (by simp [parts]) m).bind fun t n _ => ?_
    refine (part value (by simp [parts]) n).bind fun rhs k _ => ?_
    exact Asking.through_of_steps (Target.write_steps op rhs t)
  | member object key =>
    refine (part object (by simp [parts]) m).bind fun o n _ => ?_
    refine (part key (by simp [parts]) n).bind fun k j _ => ?_
    exact Asking.through_of_steps ((Eval.still_readMember o k).steps j)
  | call name args =>
    simp only [layer, callNamed]
    cases found : l.find? name with
    | none => exact Asking.through_of_steps ((Eval.still_fail _).steps m)
    | some f =>
      simp only [List.length_map]
      refine (Asking.through_of_steps (Eval.steps_report _)).bind fun _ n _ => ?_
      exact Function.apply_through (library f (List.mem_of_find?_eq_some found)) part

end Through

theorem eval_steps {l : Library} (library : l.Stepwise) (e : Expr) (m : Machine) :
    (e.eval l).StepsFrom m := by
  induction e using inside_wellFounded.induction generalizing m with
  | h e ih =>
    rw [eval_eq_layer]
    exact (layer_through ih library m).steps

theorem throughout_between {l : Library} (library : l.Stepwise) {start stop : Machine} (e : Expr)
    {m : Machine} (before : start.Steps m) (after : (e.eval l m).2.Steps stop) :
    Throughout l (fun d n => start.Steps n ∧ (d.eval l n).2.Steps stop) e m := by
  induction e using inside_wellFounded.induction generalizing m with
  | h e ih =>
    have through := layer_through (l := l) (e := e) (fun d _ n => eval_steps library d n) library m
    obtain ⟨asked, only, between⟩ := through.asks
    rw [← eval_eq_layer] at between
    refine .intro asked ⟨before, after⟩ (fun p listed => (between p listed).1) only ?_
    intro p listed
    obtain ⟨inside, earlier, later⟩ := between p listed
    exact ih p.1 inside (before.trans earlier) (later.trans after)

theorem Throughout.imp {l : Library} {P Q : Expr → Machine → Prop} (weaker : ∀ e m, P e m → Q e m)
    {e : Expr} {m : Machine} (tree : Throughout l P e m) : Throughout l Q e m := by
  induction tree with
  | intro asked here inside only _ ih => exact .intro asked (weaker _ _ here) inside only ih

end Expr

namespace Program

variable {l : Library} {m : Machine}

theorem runFrom_steps (library : l.Stepwise) (index : Nat) (last : Value) (p : Program)
    (m : Machine) : m.Steps (p.runFrom l index last m).2 := by
  induction p generalizing index last m with
  | nil => exact .refl m
  | cons e rest ih =>
    have started := (Machine.Step.report (m := m) (.statement index e.kindName)).steps
    have ended := Expr.eval_steps library e (m.report (.statement index e.kindName))
    unfold Eval.StepsFrom at ended
    unfold runFrom
    split
    · rename_i v n run
      rw [run] at ended
      exact (started.trans ended).trans (ih (index + 1) v n)
    · rename_i err n run
      rw [run] at ended
      have reported := (Machine.Step.report (m := n) (.halted n.options.label index err)).steps
      exact ((started.trans ended).trans reported).trans
        (Machine.Step.setLastError err.message).steps

theorem statementsFrom_between (library : l.Stepwise) (index : Nat) (last : Value) (p : Program)
    (m : Machine) : ∀ q ∈ statementsFrom l index p m,
      m.Steps q.2 ∧ (q.1.eval l q.2).2.Steps (p.runFrom l index last m).2 := by
  induction p generalizing index last m with
  | nil => simp [statementsFrom]
  | cons e rest ih =>
    have started := (Machine.Step.report (m := m) (.statement index e.kindName)).steps
    have ended := Expr.eval_steps library e (m.report (.statement index e.kindName))
    unfold Eval.StepsFrom at ended
    simp only [statementsFrom, runFrom, List.forall_mem_cons]
    cases run : e.eval l (m.report (.statement index e.kindName)) with
    | mk r n =>
      rw [run] at ended
      cases r with
      | ok v =>
        refine ⟨⟨started, runFrom_steps library (index + 1) v rest n⟩, ?_⟩
        intro q listed
        obtain ⟨before, after⟩ := ih (index + 1) v n q listed
        exact ⟨(started.trans ended).trans before, after⟩
      | error err =>
        have reported := (Machine.Step.report (m := n) (.halted n.options.label index err)).steps
        exact ⟨⟨started, reported.trans (Machine.Step.setLastError err.message).steps⟩, by simp⟩

theorem runAll_steps (library : l.Stepwise) (ps : List Program) (m : Machine) :
    m.Steps (runAll l ps m) := by
  induction ps generalizing m with
  | nil => exact .refl m
  | cons p rest ih => exact (runFrom_steps library 0 .null p m).trans (ih _)

theorem statements_between (library : l.Stepwise) (ps : List Program) (m : Machine) :
    ∀ q ∈ statements l ps m, m.Steps q.2 ∧ (q.1.eval l q.2).2.Steps (runAll l ps m) := by
  induction ps generalizing m with
  | nil => simp [statements]
  | cons p rest ih =>
    have ran := runFrom_steps library 0 .null p m
    refine List.forall_mem_append.mpr ⟨?_, ?_⟩
    · intro q listed
      obtain ⟨before, after⟩ := statementsFrom_between library 0 .null p m q listed
      exact ⟨before, after.trans (runAll_steps library rest _)⟩
    · intro q listed
      obtain ⟨before, after⟩ := ih (p.run l m).2 q listed
      exact ⟨ran.trans before, after⟩

end Program

def Store.HasLengths (s : Store) (length : Handle → Nat) : Prop :=
  ∀ h, h < s.arrays.size → (s.items h).length = length h

theorem Store.Grows.hasLengths {s t : Store} (grows : s.Grows t) :
    s.HasLengths fun h => (t.items h).length :=
  fun h known => (grows.lengths h known).symm

/-- Programs run one after the other on any machine. One number of elements for each array holds
    at the start, before and after every evaluation that the programs come to, whether it succeeds
    or fails, and at the end, whenever the array was created. -/
theorem Program.arrays_keep_their_length (m : Machine) (ps : List Program) :
    ∃ length : Handle → Nat,
      m.store.HasLengths length ∧
      (∀ q ∈ statements Library.standard ps m, q.1.Throughout Library.standard
        (fun e n => n.store.HasLengths length ∧
          (e.eval Library.standard n).2.store.HasLengths length) q.2) ∧
      (runAll Library.standard ps m).store.HasLengths length := by
  have library := Library.standard_stepwise
  -- the last store knows every array that there ever was
  refine ⟨fun h => ((runAll Library.standard ps m).store.items h).length,
    (runAll_steps library ps m).grows.hasLengths, ?_, (Store.Grows.refl _).hasLengths⟩
  intro q listed
  obtain ⟨before, after⟩ := statements_between library ps m q listed
  have tree := Expr.throughout_between library q.1 before after
  refine tree.imp fun e n between => ?_
  have ended := Expr.eval_steps library e n
  exact ⟨(ended.trans between.2).grows.hasLengths, between.2.grows.hasLengths⟩

end FlowScript
