import FlowScript.Evaluate
import FlowScript.Proofs.Library.Sound
import FlowScript.Proofs.Store.Walk

/-!
Evaluation one layer at a time. A layer leaves the sub-expressions to somebody else; evaluation is
the one way to answer for all of them. Main statements: a layer asks for strict sub-expressions
only, evaluation is the only solution of the equation that this gives, and on a sound machine an
evaluation unfolds into a finite tree of evaluations, all of them on sound machines.
-/
namespace FlowScript

theorem Value.adjust_known {s : Store} {op : Adjustment} {v w : Value} (done : v.adjust op = .ok w) :
    s.Knows w := by
  cases op <;> cases v <;> cases done <;> trivial

namespace Target

variable {m : Machine}

theorem read_sound (t : Target) : t.read.SoundFrom m Store.Knows := by
  cases t with
  | localVar name => exact Eval.sound_getLocal name
  | globalVar name => exact Eval.sound_getGlobal name
  | member container key => exact Eval.sound_readMember container key

theorem current_sound (op : AssignOp) (t : Target) : (t.current op).SoundFrom m Store.Knows := by
  cases op with
  | assign => exact Eval.sound_pure trivial
  | addAssign => exact read_sound t
  | subtractAssign => exact read_sound t

theorem write_sound (op : AssignOp) {rhs : Value} (known : m.store.Knows rhs) (t : Target) :
    (t.write op rhs).SoundFrom m Store.Knows := by
  cases t with
  | member container key => exact Eval.sound_assignMember container key op known
  | localVar name =>
    apply (current_sound op _).bind
    intro old n grows old_known
    apply (Eval.sound_combine op old_known (grows.knows known)).bind
    intro next k _ next_known
    refine Eval.sound_scope_bind ?_
    have stored : (Eval.setScope (k.scope.setLocal name next)).SoundFrom k Eval.anything :=
      Eval.sound_setScope fun sound => sound.scope.setLocal name next_known
    exact stored.bind fun _ _ grows' _ => Eval.sound_pure (grows'.knows next_known)
  | globalVar name =>
    apply (current_sound op _).bind
    intro old n grows old_known
    apply (Eval.sound_combine op old_known (grows.knows known)).bind
    intro next k _ next_known
    refine Eval.sound_scope_bind ?_
    have stored : (Eval.setScope (k.scope.setGlobal name next)).SoundFrom k Eval.anything :=
      Eval.sound_setScope fun sound => sound.scope.setGlobal name next_known
    exact stored.bind fun _ _ grows' _ => Eval.sound_pure (grows'.knows next_known)

theorem update_sound (op : UnaryOp) (t : Target) : (t.update op).SoundFrom m Store.Knows := by
  apply (read_sound t).bind
  intro before n _ before_known
  refine Eval.sound_ofExcept_bind fun after done => ?_
  have after_known : n.store.Knows after := Value.adjust_known done
  refine (write_sound .assign after_known t).bind fun _ k grows _ => Eval.sound_pure ?_
  split
  · exact grows.knows after_known
  · exact grows.knows before_known

end Target

namespace Expr

def parts : Expr → List Expr
  | array items => items
  | unary _ operand => [operand]
  | binary lhs _ rhs => [lhs, rhs]
  | assign target _ value => [target, value]
  | member object key => [object, key]
  | call _ args => args
  | _ => []

/-- Strict sub-expressions at any depth. -/
def Inside : Expr → Expr → Prop := Relation.TransGen fun d e => d ∈ e.parts

theorem sizeOf_part {d e : Expr} (part : d ∈ e.parts) : sizeOf d < sizeOf e := by
  cases e with
  | array items =>
    have smaller : sizeOf d < sizeOf items := List.sizeOf_lt_of_mem part
    simp only [array.sizeOf_spec]
    omega
  | call name args =>
    have smaller : sizeOf d < sizeOf args := List.sizeOf_lt_of_mem part
    simp only [call.sizeOf_spec]
    omega
  | unary op operand =>
    obtain rfl : d = operand := by simpa [parts] using part
    simp only [unary.sizeOf_spec]
    omega
  | binary lhs op rhs =>
    rcases (by simpa [parts] using part : d = lhs ∨ d = rhs) with rfl | rfl
    all_goals
      simp only [binary.sizeOf_spec]
      omega
  | assign target op value =>
    rcases (by simpa [parts] using part : d = target ∨ d = value) with rfl | rfl
    all_goals
      simp only [assign.sizeOf_spec]
      omega
  | member object key =>
    rcases (by simpa [parts] using part : d = object ∨ d = key) with rfl | rfl
    all_goals
      simp only [member.sizeOf_spec]
      omega
  | _ => simp [parts] at part

theorem inside_wellFounded : WellFounded Inside :=
  WellFounded.transGen (Subrelation.wf (fun part => sizeOf_part part) (measure sizeOf).wf)

def place (ev : Expr → Eval Value) : Expr → Eval Target
  | localVar name => pure (.localVar name)
  | globalVar name => pure (.globalVar name)
  | member object key => do
    let container ← ev object
    let k ← ev key
    pure (.member container k)
  | e => .fail (.invalidAssignmentTarget e.kindName)

/-- The value of an expression. Those of its sub-expressions are left to `ev`. -/
def layer (l : Library) (ev : Expr → Eval Value) : Expr → Eval Value
  | number x => pure (.number x)
  | text s => pure (.text s)
  | bool b => pure (.bool b)
  | localVar name => Eval.getLocal name
  | globalVar name => Eval.getGlobal name
  | array items => do
    let values ← Eval.all (items.map ev)
    Eval.newArray values
  | unary op operand =>
    match op with
    | .not => do
      let v ← ev operand
      Eval.ofExcept (v.adjust .not)
    | .negative => do
      let v ← ev operand
      Eval.ofExcept (v.adjust .negative)
    | update => do
      let target ← place ev operand
      target.update update
  | binary lhs op rhs => do
    let a ← ev lhs
    let b ← ev rhs
    Eval.binary op a b
  | assign target op value => do
    let stored ← place ev target
    let rhs ← ev value
    stored.write op rhs
  | member object key => do
    let o ← ev object
    let k ← ev key
    Eval.readMember o k
  | call name args => callNamed l name (args.map ev)

theorem evalAll_eq_map (l : Library) (es : List Expr) : evalAll l es = es.map (eval l) := by
  induction es with
  | nil => rfl
  | cons e rest ih => rw [evalAll, ih, List.map_cons]

theorem resolve_eq_place (l : Library) (e : Expr) : resolve l e = place (eval l) e := by
  cases e <;> simp only [resolve, place]

theorem eval_eq_layer (l : Library) (e : Expr) : e.eval l = layer l (eval l) e := by
  cases e with
  | unary op operand => cases op <;> simp only [eval, layer, resolve_eq_place]
  | _ => simp only [eval, layer, resolve_eq_place, evalAll_eq_map]

theorem place_congr {e : Expr} {ev other : Expr → Eval Value}
    (same : ∀ d ∈ e.parts, ev d = other d) : place ev e = place other e := by
  cases e with
  | member object key =>
    simp only [place]
    rw [same object (by simp [parts]), same key (by simp [parts])]
  | _ => rfl

theorem layer_congr (l : Library) {e : Expr} {ev other : Expr → Eval Value}
    (same : ∀ d, Inside d e → ev d = other d) : layer l ev e = layer l other e := by
  have part : ∀ d ∈ e.parts, ev d = other d := fun d member => same d (.single member)
  -- a place is looked up two levels down
  have below : ∀ t ∈ e.parts, place ev t = place other t := by
    intro t member
    refine place_congr fun d inner => same d ?_
    exact .tail (.single inner) member
  cases e with
  | array items =>
    have mapped : items.map ev = items.map other := List.map_congr_left part
    simp only [layer, mapped]
  | call name args =>
    have mapped : args.map ev = args.map other := List.map_congr_left part
    simp only [layer, mapped]
  | unary op operand =>
    have operand_same := part operand (by simp [parts])
    have place_same := below operand (by simp [parts])
    cases op <;> simp only [layer, operand_same, place_same]
  | binary lhs op rhs =>
    simp only [layer, part lhs (by simp [parts]), part rhs (by simp [parts])]
  | assign target op value =>
    simp only [layer, below target (by simp [parts]), part value (by simp [parts])]
  | member object key =>
    simp only [layer, part object (by simp [parts]), part key (by simp [parts])]
  | _ => rfl

theorem eval_unique (l : Library) (ev : Expr → Eval Value) :
    (∀ e, ev e = layer l ev e) ↔ ev = eval l :=
  only_solution inside_wellFounded (layer l) (fun _ _ _ same => layer_congr l same)
    (eval_eq_layer l) ev

section Safe

variable {l : Library} {e : Expr} {base : Expr → Eval Value}
  (known : ∀ d, Inside d e → ∀ n, (base d).SoundFrom n Store.Knows)

include known in
theorem ask_safe {d : Expr} (inside : Inside d e) (m : Machine) :
    Asking.SafeFrom (Inside · e) base m (fun ev => ev d) Store.Knows :=
  Asking.safe_ask inside (known d inside m)

include known in
theorem place_safe {t : Expr} (part : t ∈ e.parts) (m : Machine) :
    Asking.SafeFrom (Inside · e) base m (fun ev => place ev t) Eval.anything := by
  cases t with
  | localVar name => exact Asking.safe_of_sound (Eval.sound_pure trivial)
  | globalVar name => exact Asking.safe_of_sound (Eval.sound_pure trivial)
  | member object key =>
    have inside : ∀ d ∈ (member object key).parts, Inside d e := fun d inner =>
      .tail (.single inner) part
    apply (ask_safe known (inside object (by simp [parts])) m).bind
    intro container n _ _
    apply (ask_safe known (inside key (by simp [parts])) n).bind
    intro k _ _ _
    exact Asking.safe_of_sound (Eval.sound_pure trivial)
  | _ => exact Asking.safe_of_sound (Eval.sound_fail _)

include known in
theorem layer_safe (library : l.Sound) (m : Machine) :
    Asking.SafeFrom (Inside · e) base m (fun ev => layer l ev e) Store.Knows := by
  have part : ∀ d ∈ e.parts, ∀ n, Asking.SafeFrom (Inside · e) base n (fun ev => ev d) Store.Knows :=
    fun d member n => ask_safe known (.single member) n
  cases e with
  | number x => exact Asking.safe_of_sound (Eval.sound_pure trivial)
  | text s => exact Asking.safe_of_sound (Eval.sound_pure trivial)
  | bool b => exact Asking.safe_of_sound (Eval.sound_pure trivial)
  | localVar name => exact Asking.safe_of_sound (Eval.sound_getLocal name)
  | globalVar name => exact Asking.safe_of_sound (Eval.sound_getGlobal name)
  | array items =>
    apply (Asking.safe_all part m).bind
    intro values n _ values_known
    exact Asking.safe_of_sound (Eval.sound_newArray values_known)
  | unary op operand =>
    have adjusted (a : Adjustment) : Asking.SafeFrom (Inside · (unary op operand)) base m
        (fun ev => ev operand >>= fun v => Eval.ofExcept (v.adjust a)) Store.Knows := by
      refine (part operand (by simp [parts]) m).bind fun v n _ _ => Asking.safe_of_sound ?_
      exact Eval.sound_ofExcept fun w done => Value.adjust_known done
    have updated : Asking.SafeFrom (Inside · (unary op operand)) base m
        (fun ev => place ev operand >>= fun t => t.update op) Store.Knows := by
      apply (place_safe known (t := operand) (by simp [parts]) m).bind
      intro t n _ _
      exact Asking.safe_of_sound (Target.update_sound op t)
    cases op with
    | not => exact adjusted .not
    | negative => exact adjusted .negative
    | _ => exact updated
  | binary lhs op rhs =>
    apply (part lhs (by simp [parts]) m).bind
    intro a n _ a_known
    refine (part rhs (by simp [parts]) n).bind fun b k grows b_known => Asking.safe_of_sound ?_
    exact Eval.sound_binary op (grows.knows a_known) b_known
  | assign target op value =>
    apply (place_safe known (t := target) (by simp [parts]) m).bind
    intro t n _ _
    refine (part value (by simp [parts]) n).bind fun rhs k _ rhs_known => Asking.safe_of_sound ?_
    exact Target.write_sound op rhs_known t
  | member object key =>
    apply (part object (by simp [parts]) m).bind
    intro o n _ _
    refine (part key (by simp [parts]) n).bind fun k _ _ _ => Asking.safe_of_sound ?_
    exact Eval.sound_readMember o k
  | call name args =>
    simp only [layer, callNamed]
    cases found : l.find? name with
    | none => exact Asking.safe_of_sound (Eval.sound_fail _)
    | some f =>
      simp only [List.length_map]
      apply (Asking.safe_of_sound (Eval.sound_report _)).bind
      intro _ n _ _
      exact Function.apply_safe (library f (List.mem_of_find?_eq_some found)) part

end Safe

theorem eval_sound {l : Library} (library : l.Sound) (e : Expr) (m : Machine) :
    (e.eval l).SoundFrom m Store.Knows := by
  induction e using inside_wellFounded.induction generalizing m with
  | h e ih =>
    rw [eval_eq_layer]
    exact (layer_safe ih library m).sound

/-- Evaluating the expression on the machine comes down to a finite tree of evaluations, and all of
    them, the first one included, are as `P` says. Each asks for evaluations of strict
    sub-expressions, and for none that are not listed below it. What is evaluated again on the very
    same machine is listed once. -/
inductive Throughout (l : Library) (P : Expr → Machine → Prop) : Expr → Machine → Prop where
  | intro {e : Expr} {m : Machine} (asked : List (Expr × Machine)) (here : P e m)
      (inside : ∀ p ∈ asked, Inside p.1 e)
      (only : Asking.AsksOnly (eval l) m (fun ev => layer l ev e) asked)
      (below : ∀ p ∈ asked, Throughout l P p.1 p.2) : Throughout l P e m

theorem Throughout.asked {l : Library} {P : Expr → Machine → Prop} {e d : Expr} {m k : Machine}
    (tree : Throughout l P e m) {ev : Expr → Eval Value}
    (elsewhere : ∀ c n, ¬ (c = d ∧ n = k) → ev c n = c.eval l n)
    (matters : layer l ev e m ≠ e.eval l m) : Throughout l P d k := by
  cases tree with
  | intro asked here inside only below =>
    have listed : (d, k) ∈ asked := by
      refine Classical.not_not.mp fun unlisted => matters ?_
      rw [eval_eq_layer]
      apply only
      intro p member
      apply elsewhere
      rintro ⟨rfl, rfl⟩
      exact unlisted member
    exact below (d, k) listed

theorem throughout_of_sound {l : Library} (library : l.Sound) {P : Expr → Machine → Prop}
    (holds : ∀ e n, n.Sound → P e n) (e : Expr) {m : Machine} (sound : m.Sound) :
    Throughout l P e m := by
  induction e using inside_wellFounded.induction generalizing m with
  | h e ih =>
    have safe := layer_safe (l := l) (e := e) (fun d _ n => eval_sound library d n) library m
    obtain ⟨asked, only, allowed⟩ := safe.asks sound
    refine .intro asked (holds e m sound) (fun p listed => (allowed p listed).1) only ?_
    intro p listed
    exact ih p.1 (allowed p listed).1 (allowed p listed).2

end Expr
end FlowScript
