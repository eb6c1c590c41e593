import FlowScript.Console.Session
import FlowScript.Proofs.Evaluation.Layer
import FlowScript.Proofs.Machine.Step
import FlowScript.Proofs.Scope.Frames

/-!
Expressions that only look at things. Reading a global that has no value makes it null, an array in
the expression is a new array, and an operator writes into an array that it is given; nothing else
happens to the machine. Main statement: what such an expression leaves as it is, whether it succeeds
or fails.
-/
namespace FlowScript

namespace Scope

/-- Nothing was assigned to the global, and nobody has read it yet. -/
def Vacant (sc : Scope) (key : String) : Prop := ∀ v, sc.globals.get? key ≠ some (.holding v)

def reading (sc : Scope) (names : List String) : Scope :=
  names.foldl (fun sc name => (sc.getGlobal name).2) sc

variable {sc : Scope} {key : String}

@[simp] theorem reading_append (first later : List String) :
    sc.reading (first ++ later) = (sc.reading first).reading later := List.foldl_append

@[simp] theorem getGlobal_lastError (name : String) :
    (sc.getGlobal name).2.lastError = sc.lastError := by
  unfold getGlobal
  dsimp only
  split <;> rfl

@[simp] theorem reading_frames (names : List String) : (sc.reading names).frames = sc.frames := by
  induction names generalizing sc with
  | nil => rfl
  | cons name rest ih => exact ih.trans getGlobal_frames

@[simp] theorem reading_lastError (names : List String) :
    (sc.reading names).lastError = sc.lastError := by
  induction names generalizing sc with
  | nil => rfl
  | cons name rest ih => exact ih.trans (getGlobal_lastError name)

theorem get?_getGlobal_of_holding {v : Value} (held : sc.globals.get? key = some (.holding v))
    (name : String) : (sc.getGlobal name).2.globals.get? key = some (.holding v) := by
  unfold getGlobal
  dsimp only
  split
  · exact held
  · rename_i vacant
    rw [Entries.get?_insert, if_neg, held]
    rintro rfl
    exact vacant v held

theorem get?_getGlobal_of_vacant (vacant : sc.Vacant key) (name : String) :
    (sc.getGlobal name).2.globals.get? key =
      if key = globalKey name then some (.holding .null) else sc.globals.get? key := by
  unfold getGlobal
  dsimp only
  split
  · rename_i v held
    rw [if_neg]
    rintro rfl
    exact vacant v held
  · rw [Entries.get?_insert]

theorem get?_reading_of_holding {v : Value} (held : sc.globals.get? key = some (.holding v))
    (names : List String) : (sc.reading names).globals.get? key = some (.holding v) := by
  induction names generalizing sc with
  | nil => exact held
  | cons name rest ih => exact ih (get?_getGlobal_of_holding held name)

theorem get?_reading_of_vacant (vacant : sc.Vacant key) (names : List String) :
    (sc.reading names).globals.get? key =
      if key ∈ names.map globalKey then some (.holding .null) else sc.globals.get? key := by
  induction names generalizing sc with
  | nil => rfl
  | cons name rest ih =>
    have read := get?_getGlobal_of_vacant vacant name
    rw [List.map_cons]
    by_cases here : key = globalKey name
    · -- null is a value, which the reads after this one keep
      rw [if_pos here] at read
      rw [if_pos (List.mem_cons.mpr (Or.inl here))]
      exact get?_reading_of_holding read rest
    · rw [if_neg here] at read
      have still_vacant : (sc.getGlobal name).2.Vacant key := by
        unfold Vacant
        rwa [read]
      simp only [List.mem_cons, here, false_or]
      rw [← read]
      exact ih still_vacant

end Scope

namespace Store

structure KeepsArrays (s t : Store) : Prop where
  size : s.arrays.size ≤ t.arrays.size
  items : ∀ h < s.arrays.size, t.items h = s.items h

variable {s t : Store}

theorem KeepsArrays.refl (s : Store) : s.KeepsArrays s := ⟨Nat.le_refl _, fun _ _ => rfl⟩

theorem KeepsArrays.trans {u : Store} (first : s.KeepsArrays t) (second : t.KeepsArrays u) :
    s.KeepsArrays u where
  size := Nat.le_trans first.size second.size
  items h old := by
    rw [second.items h (Nat.lt_of_lt_of_le old first.size), first.items h old]

theorem keepsArrays_newArray (s : Store) (values : List Value) :
    s.KeepsArrays (s.newArray values).2 where
  size := by simp [newArray]
  items _ old := items_newArray_of_ne values (Nat.ne_of_lt old)

end Store

def ArrayFree (met : Value → Value → Prop) : Prop :=
  ∀ a b, met a b → (∀ h, a ≠ .array h) ∧ ∀ h, b ≠ .array h

namespace Operator

theorem binary_keepsArrays {s t : Store} {op : BinaryOp} {a b v : Value}
    (left : ∀ h, a ≠ .array h) (right : ∀ h, b ≠ .array h)
    (done : binary s op a b = .ok (v, t)) : s.KeepsArrays t := by
  obtain ⟨u, planned, _, _, rfl⟩ := binary_ok done
  constructor
  · exact Nat.le_of_eq (Update.commit_arrays_size u s).symm
  · intro h _
    apply Update.commit_leaves_others
    intro target
    obtain ⟨r, array⟩ := right_array_of_target planned target left
    exact right r array

end Operator

namespace Eval

variable {α β : Type} {m : Machine} {names : List String} {met : Value → Value → Prop}

/-- How a computation ends that reads some of the globals, all of them if it succeeds, and does
    nothing else to the scope. Dictionaries stay, and so do arrays if no operand is one. -/
structure Looked (names : List String) (met : Value → Value → Prop) (m : Machine)
    (out : Except RunError α × Machine) : Prop where
  scope : ∃ read, read <+: names ∧ (∀ a, out.1 = .ok a → read = names) ∧
    out.2.scope = m.scope.reading read
  dictionaries : out.2.store.dictionaries = m.store.dictionaries
  arrays : ArrayFree met → m.store.KeepsArrays out.2.store

theorem Looked.mono {out : Except RunError α × Machine} {more : Value → Value → Prop}
    (looked : Looked names met m out) (sub : ∀ a b, met a b → more a b) :
    Looked names more m out where
  scope := looked.scope
  dictionaries := looked.dictionaries
  arrays free := looked.arrays fun a b here => free a b (sub a b here)

theorem looked_unchanged (r : Except RunError α) : Looked [] met m (r, m) where
  scope := ⟨[], List.prefix_rfl, fun _ _ => rfl, rfl⟩
  dictionaries := rfl
  arrays _ := .refl _

theorem looked_getGlobal (name : String) : Looked [name] met m (getGlobal name m) where
  scope := ⟨[name], List.prefix_rfl, fun _ _ => rfl, rfl⟩
  dictionaries := rfl
  arrays _ := .refl _

theorem looked_newArray (values : List Value) : Looked [] met m (newArray values m) where
  scope := ⟨[], List.prefix_rfl, fun _ _ => rfl, rfl⟩
  dictionaries := rfl
  arrays _ := m.store.keepsArrays_newArray values

theorem looked_binary (op : BinaryOp) {a b : Value} (here : met a b) :
    Looked [] met m (binary op a b m) := by
  unfold binary
  split
  · rename_i v t done
    constructor
    · exact ⟨[], List.prefix_rfl, fun _ _ => rfl, rfl⟩
    · exact Operator.binary_dictionaries done
    · intro free
      obtain ⟨left, right⟩ := free a b here
      exact Operator.binary_keepsArrays left right done
  · exact looked_unchanged _

theorem Looked.bind {later : List String} {x : Eval α} {f : α → Eval β}
    (first : Looked names met m (x m))
    (next : ∀ a n, x m = (.ok a, n) → Looked later met n (f a n)) :
    Looked (names ++ later) met m ((x >>= f) m) := by
  obtain ⟨⟨read, start, all, scope⟩, dictionaries, arrays⟩ := first
  rw [bind_apply]
  cases run : x m with
  | mk r n =>
    rw [run] at all scope dictionaries arrays
    cases r with
    | error e =>
      refine ⟨⟨read, start.trans (List.prefix_append _ _), ?_, scope⟩, dictionaries, arrays⟩
      intro a ok
      cases ok
    | ok a =>
      obtain rfl := all a rfl
      obtain ⟨⟨more, start', all', scope'⟩, dictionaries', arrays'⟩ := next a n run
      refine ⟨⟨read ++ more, ?_, ?_, ?_⟩, dictionaries'.trans dictionaries, ?_⟩
      · exact (List.prefix_append_right_inj read).mpr start'
      · intro b ok
        rw [all' b ok]
      · rw [scope', scope, Scope.reading_append]
      · intro free
        exact (arrays free).trans (arrays' free)

theorem Looked.last {x : Eval α} {f : α → Eval β} (first : Looked names met m (x m))
    (next : ∀ a n, x m = (.ok a, n) → Looked [] met n (f a n)) :
    Looked names met m ((x >>= f) m) := by
  have both := first.bind next
  rwa [List.append_nil] at both

end Eval

namespace Expr

/-- The globals that occur in an expression, in the order in which evaluation comes to them. -/
def globalNames : Expr → List String
  | number _ | text _ | bool _ | localVar _ => []
  | globalVar name => [name]
  | unary _ operand => operand.globalNames
  | binary lhs _ rhs => lhs.globalNames ++ rhs.globalNames
  | assign target _ value => target.globalNames ++ value.globalNames
  | member object key => object.globalNames ++ key.globalNames
  | array items => ofAll items
  | call _ args => ofAll args
where
  ofAll : List Expr → List String
    | [] => []
    | e :: rest => e.globalNames ++ ofAll rest

mutual

/-- Evaluation of an expression that only looks comes to a binary operator with these operands. -/
inductive Meets (l : Library) : Expr → Machine → Value → Value → Prop where
  | here {lhs rhs : Expr} {op : BinaryOp} {m n k : Machine} {a b : Value}
      (left : lhs.eval l m = (.ok a, n)) (right : rhs.eval l n = (.ok b, k)) :
      Meets l (.binary lhs op rhs) m a b
  | lhs {lhs rhs : Expr} {op : BinaryOp} {m : Machine} {a b : Value} (inside : Meets l lhs m a b) :
      Meets l (.binary lhs op rhs) m a b
  | rhs {lhs rhs : Expr} {op : BinaryOp} {m n : Machine} {v a b : Value}
      (left : lhs.eval l m = (.ok v, n)) (inside : Meets l rhs n a b) :
      Meets l (.binary lhs op rhs) m a b
  | operand {op : UnaryOp} {operand : Expr} {m : Machine} {a b : Value}
      (inside : Meets l operand m a b) : Meets l (.unary op operand) m a b
  | object {object key : Expr} {m : Machine} {a b : Value} (inside : Meets l object m a b) :
      Meets l (.member object key) m a b
  | key {object key : Expr} {m n : Machine} {v a b : Value}
      (first : object.eval l m = (.ok v, n)) (inside : Meets l key n a b) :
      Meets l (.member object key) m a b
  | item {items : List Expr} {m : Machine} {a b : Value} (inside : MeetsAmong l items m a b) :
      Meets l (.array items) m a b

inductive MeetsAmong (l : Library) : List Expr → Machine → Value → Value → Prop where
  | head {e : Expr} {rest : List Expr} {m : Machine} {a b : Value} (inside : Meets l e m a b) :
      MeetsAmong l (e :: rest) m a b
  | tail {e : Expr} {rest : List Expr} {m n : Machine} {v a b : Value}
      (first : e.eval l m = (.ok v, n)) (inside : MeetsAmong l rest n a b) :
      MeetsAmong l (e :: rest) m a b

end

variable {l : Library}

theorem echoable_of_mem {items : List Expr} (echoable : isEchoable.allEchoable items = true) :
    ∀ e ∈ items, e.isEchoable = true := by
  induction items with
  | nil => simp
  | cons e rest ih =>
    rw [isEchoable.allEchoable, Bool.and_eq_true] at echoable
    exact List.forall_mem_cons.mpr ⟨echoable.1, ih echoable.2⟩

theorem all_looked {items : List Expr}
    (each : ∀ e ∈ items, ∀ m, Eval.Looked e.globalNames (e.Meets l m) m (e.eval l m))
    (m : Machine) :
    Eval.Looked (globalNames.ofAll items) (MeetsAmong l items m) m
      (Eval.all (items.map (eval l)) m) := by
  induction items generalizing m with
  | nil => exact Eval.looked_unchanged _
  | cons e rest ih =>
    rw [List.forall_mem_cons] at each
    apply ((each.1 m).mono fun _ _ inside => .head inside).bind
    intro v n run
    apply ((ih each.2 n).mono fun _ _ inside => .tail run inside).last
    intro vs k _
    exact Eval.looked_unchanged _

theorem eval_looked {e : Expr} (echoable : e.isEchoable = true) (m : Machine) :
    Eval.Looked e.globalNames (e.Meets l m) m (e.eval l m) := by
  induction e using inside_wellFounded.induction generalizing m with
  | h e ih =>
    have part : ∀ d ∈ e.parts, d.isEchoable = true → ∀ n,
        Eval.Looked d.globalNames (d.Meets l n) n (d.eval l n) :=
      fun d member => ih d (.single member)
    rw [eval_eq_layer]
    cases e with
    | number x => exact Eval.looked_unchanged _
    | text s => exact Eval.looked_unchanged _
    | bool b => exact Eval.looked_unchanged _
    | localVar name => exact Eval.looked_unchanged _
    | globalVar name => exact Eval.looked_getGlobal name
    | array items =>
      have each := fun d member => part d member (echoable_of_mem echoable d member)
      apply ((all_looked each m).mono fun _ _ inside => .item inside).last
      intro values n _
      exact Eval.looked_newArray values
    | unary op operand =>
      rw [isEchoable, Bool.and_eq_true] at echoable
      have looked : Eval.Looked operand.globalNames ((unary op operand).Meets l m) m
          (operand.eval l m) :=
        (part operand (by simp [parts]) echoable.2 m).mono fun _ _ inside => .operand inside
      cases op with
      | not => exact looked.last fun v n _ => Eval.looked_unchanged _
      | negative => exact looked.last fun v n _ => Eval.looked_unchanged _
      | _ => cases echoable.1 -- one up or down would be a write
    | binary lhs op rhs =>
      rw [isEchoable, Bool.and_eq_true] at echoable
      apply ((part lhs (by simp [parts]) echoable.1 m).mono fun _ _ inside => .lhs inside).bind
      intro a n left
      apply ((part rhs (by simp [parts]) echoable.2 n).mono fun _ _ inside => .rhs left inside).last
      intro b k right
      exact Eval.looked_binary op (.here left right)
    | member object key =>
      rw [isEchoable, Bool.and_eq_true] at echoable
      apply ((part object (by simp [parts]) echoable.1 m).mono fun _ _ inside => .object inside).bind
      intro o n first
      apply ((part key (by simp [parts]) echoable.2 n).mono fun _ _ inside => .key first inside).last
      intro k _ _
      exact Eval.looked_unchanged _
    | assign target op value => cases echoable
    | call name args => cases echoable

/-- Whether it succeeds or fails, an expression that only looks leaves the frames, the last error,
    the dictionaries and every global that has a value as they are. What it does to the scope is to
    read globals, which makes those without a value null: the globals that occur in it, up to the
    failure if there is one. Arrays that were there before stay as they are if no operator is given
    an array. -/
theorem echoable_only_reads {e : Expr} (echoable : e.isEchoable = true) {m n : Machine}
    {r : Except RunError Value} (run : e.eval l m = (r, n)) :
    n.scope.frames = m.scope.frames ∧ n.scope.lastError = m.scope.lastError ∧
    n.store.dictionaries = m.store.dictionaries ∧
    (∀ key v, m.scope.globals.get? key = some (.holding v) →
      n.scope.globals.get? key = some (.holding v)) ∧
    (∃ read, read <+: e.globalNames ∧ (∀ v, r = .ok v → read = e.globalNames) ∧
      n.scope = m.scope.reading read ∧
      ∀ key, m.scope.Vacant key → n.scope.globals.get? key =
        if key ∈ read.map Scope.globalKey then some (.holding .null)
        else m.scope.globals.get? key) ∧
    (ArrayFree (e.Meets l m) → ∀ h < m.store.arrays.size, n.store.items h = m.store.items h) := by
  have looked := eval_looked (l := l) echoable m
  rw [run] at looked
  obtain ⟨⟨read, start, all, scope⟩, dictionaries, arrays⟩ := looked
  dsimp only at all scope dictionaries arrays
  rw [scope]
  refine ⟨Scope.reading_frames read, Scope.reading_lastError read, dictionaries, ?_, ?_, ?_⟩
  · intro key v held
    exact Scope.get?_reading_of_holding held read
  · exact ⟨read, start, all, rfl, fun key vacant => Scope.get?_reading_of_vacant vacant read⟩
  · intro free h old
    exact (arrays free).items h old

theorem echoable_only_reads_unset :
    let start := Machine.initial {} ⟨⟨2024, 1, 1⟩, 0, 0⟩
    let m := { start with store := (start.store.newArray [.text "z"]).2 }
    let e := array [binary (globalVar "$g") .equal (text "a"), localVar "y", globalVar "$h"]
    let n := (e.eval .standard m).2
    e.isEchoable = true ∧ (e.eval .standard m).1 = .error (.uninitializedVariable "y") ∧
      ArrayFree (e.Meets .standard m) ∧ n.scope.frames = m.scope.frames ∧
      (∃ read, read <+: ["$g", "$h"] ∧ n.scope = m.scope.reading read) ∧
      n.store.items 0 = [.text "z"] := by
  intro start m e n
  have failed : e.eval .standard m = (.error (.uninitializedVariable "y"), n) := rfl
  have free : ArrayFree (e.Meets .standard m) := by
    intro a b met
    simp only [e] at met
    cases met with
    | item among =>
      cases among with
      | head inside =>
        cases inside with
        | here left right =>
          cases left
          cases right
          simp
        | lhs inside => cases inside
        | rhs _ inside => cases inside
      | tail first among =>
        cases first
        cases among with
        | head inside => cases inside
        | tail second _ => cases second
  obtain ⟨frames, _, _, _, ⟨read, start, _, scope, _⟩, arrays⟩ :=
    echoable_only_reads (e := e) rfl failed
  exact ⟨rfl, rfl, free, frames, ⟨read, start, scope⟩, arrays free 0 Nat.zero_lt_one⟩

end Expr
end FlowScript
