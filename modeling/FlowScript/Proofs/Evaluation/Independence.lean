import FlowScript.Proofs.Evaluation.Layer
import FlowScript.Proofs.Library.Blind

/-!
Evaluation beside a local variable that the expression does not mention. Main statement: from
machines that are alike but for the local, an evaluation that calls neither for the clock nor for
variables by name gives the same answer or the same error. The machines stay alike, and each keeps
its own local.
-/
namespace FlowScript

theorem Eval.bind_assoc {α β γ : Type} (c : Eval α) (f : α → Eval β) (g : β → Eval γ) :
    c >>= f >>= g = c >>= fun a => f a >>= g := by
  funext m
  rw [bind_apply, bind_apply, bind_apply]
  cases c m with
  | mk answer n => cases answer <;> rfl

namespace Target

variable {x : String} {t : Target} (other : t ≠ .localVar x)

include other in
theorem read_blind : t.read.Blind x := by
  cases t with
  | localVar name => exact Eval.blind_getLocal fun same => other (same ▸ rfl)
  | globalVar name => exact Eval.blind_getGlobal name
  | member container key => exact Eval.blind_readMember container key

include other in
theorem current_blind (op : AssignOp) : (t.current op).Blind x := by
  cases op with
  | assign => exact Eval.blind_pure _
  | addAssign => exact read_blind other
  | subtractAssign => exact read_blind other

include other in
theorem write_blind (op : AssignOp) (rhs : Value) : (t.write op rhs).Blind x := by
  cases t with
  | member container key => exact Eval.blind_assignMember container key op rhs
  | localVar name =>
    have apart : name ≠ x := fun same => other (same ▸ rfl)
    apply (current_blind other op).bind
    intro old
    apply (Eval.blind_combine op old rhs).bind
    intro next m n
    apply Eval.inStep_scope_bind
    exact (Eval.inStep_setLocal apart next).bind fun _ => Eval.blind_pure next
  | globalVar name =>
    apply (current_blind other op).bind
    intro old
    apply (Eval.blind_combine op old rhs).bind
    intro next m n
    apply Eval.inStep_scope_bind
    exact (Eval.inStep_setGlobal name next).bind fun _ => Eval.blind_pure next

include other in
theorem update_blind (op : UnaryOp) : (t.update op).Blind x := by
  apply (read_blind other).bind
  intro before
  apply (Eval.blind_ofExcept _).bind
  intro after
  exact (write_blind other .assign after).bind fun _ => Eval.blind_pure _

end Target

namespace Expr

/-- Holds of the expression and of all that stands inside it. -/
def Everywhere (P : Expr → Prop) (e : Expr) : Prop := P e ∧ ∀ d, Inside d e → P d

theorem Everywhere.inside {P : Expr → Prop} {d e : Expr} (everywhere : e.Everywhere P)
    (inner : Inside d e) : d.Everywhere P :=
  ⟨everywhere.2 d inner, fun c innermost => everywhere.2 c (innermost.trans inner)⟩

theorem Everywhere.of_parts {P : Expr → Prop} {e : Expr} (here : P e)
    (below : ∀ d ∈ e.parts, d.Everywhere P) : e.Everywhere P := by
  refine ⟨here, fun d inner => ?_⟩
  -- the way up from `d` enters the expression from one of its parts
  obtain ⟨part, way, member⟩ := Relation.TransGen.tail'_iff.mp inner
  rcases Relation.reflTransGen_iff_eq_or_transGen.mp way with rfl | deeper
  · exact (below part member).1
  · exact (below part member).2 d deeper

theorem everywhere_of_flat {P : Expr → Prop} {e : Expr} (here : P e) (flat : e.parts = []) :
    e.Everywhere P :=
  .of_parts here (by simp [flat])

def Calls (names : List String) : Expr → Prop
  | call name _ => name ∈ names
  | _ => False

theorem calls_append {d : Expr} {names others : List String} :
    d.Calls (names ++ others) ↔ d.Calls names ∨ d.Calls others := by
  cases d <;> simp [Calls]

variable {x : String} {names : List String} {l : Library} {e : Expr} {ev : Expr → Eval Value}

theorem place_bind_blind {t : Expr} (other : t ≠ localVar x)
    (known : ∀ d ∈ t.parts, (ev d).Blind x) {next : Target → Eval Value}
    (blind : ∀ p, p ≠ .localVar x → (next p).Blind x) : (place ev t >>= next).Blind x := by
  cases t with
  | localVar name => exact blind (.localVar name) fun same => by cases same; exact other rfl
  | globalVar name => exact blind (.globalVar name) (by simp)
  | member object key =>
    rw [place, Eval.bind_assoc]
    apply (known object (by simp [parts])).bind
    intro container
    rw [Eval.bind_assoc]
    apply (known key (by simp [parts])).bind
    intro k
    exact blind (.member container k) (by simp)
  | _ => exact Eval.blind_fail (.invalidAssignmentTarget _)

theorem layer_blind (unmentioned : e.Everywhere (· ≠ localVar x))
    (library : ∀ name f, l.find? name = some f → name ∉ names → f.body.Blind x)
    (called : ¬ e.Calls names) (known : ∀ d, Inside d e → (ev d).Blind x) :
    (layer l ev e).Blind x := by
  have part : ∀ d ∈ e.parts, (ev d).Blind x := fun d member => known d (.single member)
  -- the place of a target that is not the local, with its container and its key two levels down
  have stored {t : Expr} (member : t ∈ e.parts) {next : Target → Eval Value}
      (blind : ∀ p, p ≠ .localVar x → (next p).Blind x) : (place ev t >>= next).Blind x := by
    refine place_bind_blind (unmentioned.2 t (.single member)) (fun d inner => ?_) blind
    exact known d (.tail (.single inner) member)
  cases e with
  | number v => exact Eval.blind_pure _
  | text s => exact Eval.blind_pure _
  | bool b => exact Eval.blind_pure _
  | localVar name => exact Eval.blind_getLocal fun same => unmentioned.1 (same ▸ rfl)
  | globalVar name => exact Eval.blind_getGlobal name
  | array items =>
    have each : ∀ c ∈ items.map ev, c.Blind x := List.forall_mem_map.mpr part
    exact (Eval.blind_all each).bind fun values => Eval.blind_newArray values
  | unary op operand =>
    have adjusted (a : Adjustment) :
        (ev operand >>= fun v => Eval.ofExcept (v.adjust a)).Blind x :=
      (part operand (by simp [parts])).bind fun v => Eval.blind_ofExcept _
    have updated : (place ev operand >>= fun t => t.update op).Blind x :=
      stored (by simp [parts]) fun p other => Target.update_blind other op
    cases op with
    | not => exact adjusted .not
    | negative => exact adjusted .negative
    | _ => exact updated
  | binary lhs op rhs =>
    apply (part lhs (by simp [parts])).bind
    intro a
    exact (part rhs (by simp [parts])).bind fun b => Eval.blind_binary op a b
  | assign target op value =>
    apply stored (t := target) (by simp [parts])
    intro p other
    exact (part value (by simp [parts])).bind fun rhs => Target.write_blind other op rhs
  | member object key =>
    apply (part object (by simp [parts])).bind
    intro o
    exact (part key (by simp [parts])).bind fun k => Eval.blind_readMember o k
  | call name args =>
    have each : ∀ c ∈ args.map ev, c.Blind x := List.forall_mem_map.mpr part
    simp only [layer, callNamed]
    cases found : l.find? name with
    | none => exact Eval.blind_fail _
    | some f =>
      apply (Eval.blind_report _).bind
      intro _
      exact Function.apply_blind (library name f found called) each

theorem eval_blind (unmentioned : e.Everywhere (· ≠ localVar x))
    (library : ∀ name f, l.find? name = some f → name ∉ names → f.body.Blind x)
    (called : e.Everywhere (¬ ·.Calls names)) : (e.eval l).Blind x := by
  induction e using inside_wellFounded.induction with
  | h e ih =>
    rw [eval_eq_layer]
    apply layer_blind unmentioned library called.1
    intro d inner
    exact ih d inner (unmentioned.inside inner) (called.inside inner)

end Expr

namespace Library

/-- The standard functions but for those that look at the clock. -/
def clockless : Library := ⟨standard.functions.filter (·.name ∉ clockNames)⟩

variable {x name : String} {f : Function}

theorem name_of_find? {l : Library} (found : l.find? name = some f) : f.name = name := by
  simpa using List.find?_some found

theorem standard_find?_blind (found : standard.find? name = some f)
    (other : name ∉ variableNames ++ clockNames) : f.body.Blind x := by
  rw [List.mem_append, not_or] at other
  obtain rfl : f.name = name := name_of_find? found
  exact standard_blind f (List.mem_of_find?_eq_some found) other.1 other.2

theorem clockless_find?_blind (found : clockless.find? name = some f)
    (direct : name ∉ variableNames) : f.body.Blind x := by
  obtain ⟨listed, timeless⟩ := List.mem_filter.mp (List.mem_of_find?_eq_some found)
  obtain rfl : f.name = name := name_of_find? found
  exact standard_blind f listed direct (of_decide_eq_true timeless)

end Library

/-- The expression does not name the local, nor does it call for variables by name. The functions
    that look at the clock are either not there or not called. -/
theorem Expr.unmentioned_local_is_left_alone {x : String} {e : Expr} {l : Library} {m n : Machine}
    (unmentioned : e.Everywhere (· ≠ .localVar x))
    (direct : e.Everywhere (¬ ·.Calls Library.variableNames))
    (timeless : l = .clockless ∨ l = .standard ∧ e.Everywhere (¬ ·.Calls Library.clockNames))
    (alike : m.AlikeBut x n) : Twins x m n (e.eval l m) (e.eval l n) := by
  rcases timeless with rfl | ⟨rfl, timeless⟩
  · exact eval_blind unmentioned (fun _ _ => Library.clockless_find?_blind) direct m n alike
  · have called : e.Everywhere (¬ ·.Calls (Library.variableNames ++ Library.clockNames)) := by
      simp only [Everywhere, calls_append, not_or]
      exact ⟨⟨direct.1, timeless.1⟩, fun d inner => ⟨direct.2 d inner, timeless.2 d inner⟩⟩
    exact eval_blind unmentioned (fun _ _ => Library.standard_find?_blind) called m n alike

theorem Expr.unmentioned_local_is_left_alone_append :
    let start := Machine.initial {} ⟨⟨2024, 1, 1⟩, 0, 0⟩
    let n := { start with scope := start.scope.setLocal "y" (.text "a") }
    let m := { n with scope := n.scope.setLocal "x" (.bool true) }
    let e := call "If" [bool true, assign (localVar "y") .addAssign (text "b"), localVar "y"]
    m.AlikeBut "x" n ∧ Twins "x" m n (e.eval .clockless m) (e.eval .clockless n) := by
  intro start n m e
  have alike : m.AlikeBut "x" n := by
    constructor
    · rfl
    · rfl
    · rfl
  have spread {P : Expr → Prop} (whole : P e) (condition : P (bool true))
      (change : P (assign (localVar "y") .addAssign (text "b"))) (target : P (localVar "y"))
      (value : P (text "b")) : e.Everywhere P := by
    have same : (localVar "y").Everywhere P := everywhere_of_flat target rfl
    have appended : (assign (localVar "y") .addAssign (text "b")).Everywhere P := by
      apply Everywhere.of_parts change
      simpa [parts] using ⟨same, everywhere_of_flat value rfl⟩
    apply Everywhere.of_parts whole
    simpa [e, parts] using ⟨everywhere_of_flat condition rfl, appended, same⟩
  constructor
  · exact alike
  · apply unmentioned_local_is_left_alone _ _ (.inl rfl) alike
    · exact spread (by simp [e]) (by simp) (by simp) (by simp) (by simp)
    · exact spread (by simp [e, Calls, Library.variableNames]) id id id id

end FlowScript
