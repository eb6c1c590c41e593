import FlowScript.Proofs.Machine.Sound
import FlowScript.Proofs.Scope.Frames

/-!
Machines that differ in one local variable only, and computations that run side by side on two such
machines. Main statements: the rules by which two computations stay in step, and each primitive
computation that does not name the variable is in step with itself.
-/
namespace FlowScript

namespace Entries

variable {α : Type} {x name : String}

def without (x : String) (e : Entries α) : Entries α := ⟨e.toList.filter (·.1 ≠ x)⟩

theorem get?_without (e : Entries α) (other : name ≠ x) : (e.without x).get? name = e.get? name := by
  obtain ⟨pairs⟩ := e
  simp only [without, get?]
  induction pairs with
  | nil => rfl
  | cons p rest ih =>
    by_cases hidden : p.1 = x
    · have apart : (name == p.1) = false := beq_eq_false_iff_ne.mpr (hidden ▸ other)
      rw [List.filter_cons_of_neg (by simpa using hidden), ih, List.lookup_cons, apart]
    · rw [List.filter_cons_of_pos (by simpa using hidden), List.lookup_cons, List.lookup_cons, ih]

theorem insert_without (e : Entries α) (value : α) (other : name ≠ x) :
    (e.insert name value).without x = (e.without x).insert name value := by
  obtain ⟨pairs⟩ := e
  simp only [without, insert, Entries.mk.injEq]
  induction pairs with
  | nil => simp [insertList, other]
  | cons p rest ih =>
    by_cases hidden : p.1 = x
    · have apart : p.1 ≠ name := fun same => other (same.symm.trans hidden)
      rw [insertList, if_neg apart, List.filter_cons_of_neg (by simpa using hidden),
        List.filter_cons_of_neg (by simpa using hidden), ih]
    · rw [List.filter_cons_of_pos (by simpa using hidden), insertList, insertList]
      by_cases same : p.1 = name
      · rw [if_pos same, if_pos same, List.filter_cons_of_pos (by simpa using other)]
      · rw [if_neg same, if_neg same, List.filter_cons_of_pos (by simpa using hidden), ih]

end Entries

namespace Scope

variable {sc : Scope} {x name : String} {v : Value}

def without (x : String) (sc : Scope) : Scope :=
  { sc with frame := sc.frame.without x, outer := sc.outer.map (·.without x) }

def bindings (x : String) (sc : Scope) : List (Option Value) := sc.frames.map (·.get? x)

theorem contains_without (f : Frame) (other : name ≠ x) :
    (f.without x).contains name = f.contains name := by
  rw [Entries.contains, Entries.contains, Entries.get?_without f other]

theorem local?_without (sc : Scope) (other : name ≠ x) :
    (sc.without x).local? name = sc.local? name := by
  have hidden : (sc.without x).frames = sc.frames.map (·.without x) := rfl
  rw [local?, local?, hidden, List.findSome?_map]
  congr 1
  funext f
  exact Entries.get?_without f other

theorem getLocal_without (sc : Scope) (other : name ≠ x) :
    (sc.without x).getLocal name = sc.getLocal name := by
  rw [getLocal, getLocal, local?_without sc other]

theorem overwrite?_without (v : Value) (fs : List Frame) (other : name ≠ x) :
    overwrite? name v (fs.map (·.without x)) =
      (overwrite? name v fs).map (·.map (·.without x)) := by
  induction fs with
  | nil => rfl
  | cons f rest ih =>
    rw [List.map_cons, overwrite?, overwrite?, contains_without f other]
    split
    · simp [Entries.insert_without f v other]
    · rw [ih, Option.map_map, Option.map_map]
      rfl

theorem setLocal_without (sc : Scope) (v : Value) (other : name ≠ x) :
    (sc.setLocal name v).without x = (sc.without x).setLocal name v := by
  have below : overwrite? name v (sc.without x).outer =
      (overwrite? name v sc.outer).map (·.map (·.without x)) := overwrite?_without v sc.outer other
  have here : (sc.without x).frame.contains name = sc.frame.contains name :=
    contains_without sc.frame other
  have inserted : (sc.without x).frame.insert name v = (sc.frame.insert name v).without x :=
    (Entries.insert_without sc.frame v other).symm
  unfold setLocal
  rw [below, here, inserted]
  split
  · rfl
  · cases overwrite? name v sc.outer <;> rfl

theorem bindings_setLocal (sc : Scope) (v : Value) (other : name ≠ x) :
    (sc.setLocal name v).bindings x = sc.bindings x := by
  have kept (f : Frame) : (f.insert name v).get? x = f.get? x := by
    rw [Entries.get?_insert, if_neg (Ne.symm other)]
  unfold bindings
  rcases setLocal_cases sc name v with ⟨inner, f, rest, split, _, _, after⟩ | ⟨_, after⟩
  · rw [after, split]
    simp [kept]
  · rw [after, frames]
    simp [kept]

theorem getGlobal_without (sc : Scope) (x name : String) :
    (sc.without x).getGlobal name = ((sc.getGlobal name).1, (sc.getGlobal name).2.without x) := by
  unfold getGlobal
  dsimp only [without]
  split <;> rfl

theorem bindings_getGlobal (sc : Scope) (x name : String) :
    (sc.getGlobal name).2.bindings x = sc.bindings x := by
  rw [bindings, bindings, getGlobal_frames]

end Scope

namespace Machine

variable {x : String} {m n : Machine}

/-- The machines hold the same but for the local. Clocks and logs are left aside. -/
structure AlikeBut (x : String) (m n : Machine) : Prop where
  store : m.store = n.store
  scope : m.scope.without x = n.scope.without x
  options : m.options = n.options

theorem AlikeBut.globals (alike : m.AlikeBut x n) : m.scope.globals = n.scope.globals := by
  change (m.scope.without x).globals = (n.scope.without x).globals
  rw [alike.scope]

theorem AlikeBut.lastError (alike : m.AlikeBut x n) : m.scope.lastError = n.scope.lastError := by
  change (m.scope.without x).lastError = (n.scope.without x).lastError
  rw [alike.scope]

theorem AlikeBut.maxIterations (alike : m.AlikeBut x n) : m.maxIterations = n.maxIterations := by
  simp only [Machine.maxIterations, Scope.peekGlobal, alike.globals, alike.options]

end Machine

/-- Two computations, started on `m` and on `n`, ended with the same answer, on machines that are
    alike but for the local. Each left the local as it was, and both reported the same. -/
structure Twins {α : Type} (x : String) (m n : Machine) (p q : Except RunError α × Machine) :
    Prop where
  answer : p.1 = q.1
  alike : p.2.AlikeBut x q.2
  left : p.2.scope.bindings x = m.scope.bindings x
  right : q.2.scope.bindings x = n.scope.bindings x
  reports : ∃ events, p.2.log = m.log ++ events ∧ q.2.log = n.log ++ events

theorem Twins.trans {α β : Type} {x : String} {m n k j : Machine} {r s : Except RunError α}
    {p q : Except RunError β × Machine} (first : Twins x m n (r, k) (s, j))
    (second : Twins x k j p q) : Twins x m n p q where
  answer := second.answer
  alike := second.alike
  left := second.left.trans first.left
  right := second.right.trans first.right
  reports := by
    obtain ⟨events, log, log'⟩ := first.reports
    obtain ⟨more, longer, longer'⟩ := second.reports
    dsimp only at log log'
    refine ⟨events ++ more, ?_, ?_⟩
    · rw [longer, log, Array.append_assoc]
    · rw [longer', log', Array.append_assoc]

theorem Twins.withAnswer {α β : Type} {x : String} {m n k j : Machine} {r s : Except RunError α}
    (first : Twins x m n (r, k) (s, j)) {answer other : Except RunError β} (same : answer = other) :
    Twins x m n (answer, k) (other, j) :=
  ⟨same, first.alike, first.left, first.right, first.reports⟩

namespace Eval

variable {α β : Type} {x : String} {m n : Machine}

def InStep (x : String) (m n : Machine) (c d : Eval α) : Prop :=
  m.AlikeBut x n → Twins x m n (c m) (d n)

/-- The computation neither sees nor touches the local. -/
def Blind (x : String) (c : Eval α) : Prop := ∀ m n, InStep x m n c c

theorem InStep.bind {c d : Eval α} {f g : α → Eval β} (first : InStep x m n c d)
    (next : ∀ a k j, InStep x k j (f a) (g a)) : InStep x m n (c >>= f) (d >>= g) := by
  intro alike
  have twins := first alike
  rw [bind_apply, bind_apply]
  cases left : c m with
  | mk r k =>
    cases right : d n with
    | mk s j =>
      rw [left, right] at twins
      obtain rfl : r = s := twins.answer
      cases r with
      | error e => exact twins.withAnswer rfl
      | ok a => exact twins.trans (next a k j twins.alike)

theorem Blind.bind {c : Eval α} {f : α → Eval β} (first : c.Blind x) (next : ∀ a, (f a).Blind x) :
    (c >>= f).Blind x := by
  intro m n
  exact (first m n).bind fun a k j => next a k j

theorem inStep_scope_bind {f g : Scope → Eval α} (next : InStep x m n (f m.scope) (g n.scope)) :
    InStep x m n (scope >>= f) (scope >>= g) := next

theorem inStep_machine_bind {f g : Machine → Eval α} (next : InStep x m n (f m) (g n)) :
    InStep x m n (machine >>= f) (machine >>= g) := next

theorem Blind.orElse {c : Eval α} {handler : RunError → Eval α} (first : c.Blind x)
    (other : ∀ e, (handler e).Blind x) : (c.orElse handler).Blind x := by
  intro m n alike
  have twins := first m n alike
  unfold Eval.orElse
  cases left : c m with
  | mk r k =>
    cases right : c n with
    | mk s j =>
      rw [left, right] at twins
      obtain rfl : r = s := twins.answer
      cases r with
      | ok a => exact twins
      | error e => exact twins.trans (other e k j twins.alike)

theorem blind_of_store {c : Eval α} (run : Store → Except RunError α × Store)
    (shape : ∀ m, c m = ((run m.store).1, { m with store := (run m.store).2 })) : c.Blind x := by
  intro m n alike
  rw [shape, shape, alike.store]
  exact ⟨rfl, ⟨rfl, alike.scope, alike.options⟩, rfl, rfl, #[], by simp, by simp⟩

theorem blind_pure (a : α) : Blind x (pure a) := blind_of_store (.ok a, ·) fun _ => rfl

theorem blind_fail (e : RunError) : Blind x (fail e : Eval α) :=
  blind_of_store (.error e, ·) fun _ => rfl

theorem blind_ofExcept (r : Except RunError α) : Blind x (ofExcept r) :=
  blind_of_store (r, ·) fun _ => rfl

theorem blind_store : Blind x store := blind_of_store (fun s => (.ok s, s)) fun _ => rfl

theorem blind_setStore (s : Store) : Blind x (setStore s) :=
  blind_of_store (fun _ => (.ok (), s)) fun _ => rfl

theorem blind_render (v : Value) : Blind x (render v) :=
  blind_of_store (fun s => (.ok (s.render v), s)) fun _ => rfl

theorem blind_readMember (object key : Value) : Blind x (readMember object key) :=
  blind_of_store (fun s => (Member.read s object key, s)) fun _ => rfl

theorem blind_newArray (values : List Value) : Blind x (newArray values) :=
  blind_of_store (fun s => (.ok (s.newArray values).1, (s.newArray values).2)) fun _ => rfl

theorem blind_newDictionary (e : Entries Value) : Blind x (newDictionary e) :=
  blind_of_store (fun s => (.ok (s.newDictionary e).1, (s.newDictionary e).2)) fun _ => rfl

theorem blind_of_result {c : Eval Value} (run : Store → Except RunError (Value × Store))
    (shape : ∀ m, c m = ((run m.store).map (·.1),
      { m with store := ((run m.store).toOption.map (·.2)).getD m.store })) : c.Blind x :=
  blind_of_store (fun s => ((run s).map (·.1), ((run s).toOption.map (·.2)).getD s)) shape

theorem blind_binary (op : BinaryOp) (a b : Value) : Blind x (binary op a b) := by
  apply blind_of_result fun s => Operator.binary s op a b
  intro m
  unfold binary
  cases Operator.binary m.store op a b <;> rfl

theorem blind_combine (op : AssignOp) (current rhs : Value) : Blind x (combine op current rhs) := by
  apply blind_of_result fun s => Operator.combine s op current rhs
  intro m
  unfold combine
  cases Operator.combine m.store op current rhs <;> rfl

theorem blind_report (e : Event) : Blind x (report e) := by
  intro m n alike
  exact ⟨rfl, ⟨alike.store, alike.scope, alike.options⟩, rfl, rfl, #[e],
    Array.push_eq_append, Array.push_eq_append⟩

theorem blind_assignMember (object key : Value) (op : AssignOp) (rhs : Value) :
    Blind x (assignMember object key op rhs) := by
  intro m n alike
  unfold assignMember
  rw [← alike.store]
  split
  · exact ⟨rfl, ⟨rfl, alike.scope, alike.options⟩, rfl, rfl, #[], by simp, by simp⟩
  · exact ⟨rfl, ⟨rfl, alike.scope, alike.options⟩, rfl, rfl, #[_],
      Array.push_eq_append, Array.push_eq_append⟩
  · exact ⟨rfl, ⟨rfl, alike.scope, alike.options⟩, rfl, rfl, #[], by simp, by simp⟩

theorem Blind.truth {c : Eval Value} (first : c.Blind x) : c.truth.Blind x := by
  intro m n alike
  have twins := first m n alike
  unfold Eval.truth
  cases left : c m with
  | mk r k =>
    cases right : c n with
    | mk s j =>
      rw [left, right] at twins
      obtain rfl : r = s := twins.answer
      cases r with
      | error e => exact twins.withAnswer rfl
      | ok v =>
        have store : k.store = j.store := twins.alike.store
        exact twins.withAnswer (by rw [store])

theorem blind_all {cs : List (Eval α)} (each : ∀ c ∈ cs, c.Blind x) : (all cs).Blind x := by
  induction cs with
  | nil => exact blind_pure []
  | cons c rest ih =>
    rw [List.forall_mem_cons] at each
    exact each.1.bind fun a => (ih each.2).bind fun as => blind_pure (a :: as)

theorem blind_getLocal {name : String} (other : name ≠ x) : Blind x (getLocal name) := by
  intro m n alike
  refine ⟨?_, alike, rfl, rfl, #[], by simp [getLocal], by simp [getLocal]⟩
  change m.scope.getLocal name = n.scope.getLocal name
  rw [← Scope.getLocal_without m.scope other, alike.scope, Scope.getLocal_without n.scope other]

theorem blind_getGlobal (name : String) : Blind x (getGlobal name) := by
  intro m n alike
  have both : ((m.scope.getGlobal name).1, (m.scope.getGlobal name).2.without x) =
      ((n.scope.getGlobal name).1, (n.scope.getGlobal name).2.without x) := by
    rw [← Scope.getGlobal_without, ← Scope.getGlobal_without, alike.scope]
  obtain ⟨value, rest⟩ := Prod.mk.inj both
  refine ⟨congrArg Except.ok value, ⟨alike.store, rest, alike.options⟩, ?_, ?_, #[], ?_, ?_⟩
  · exact Scope.bindings_getGlobal m.scope x name
  · exact Scope.bindings_getGlobal n.scope x name
  · simp [getGlobal]
  · simp [getGlobal]

theorem inStep_setScope (change : Scope → Scope)
    (blind : ∀ sc : Scope, (change sc).without x = change (sc.without x))
    (kept : ∀ sc : Scope, (change sc).bindings x = sc.bindings x) :
    InStep x m n (setScope (change m.scope)) (setScope (change n.scope)) := by
  intro alike
  refine ⟨rfl, ⟨alike.store, ?_, alike.options⟩, kept m.scope, kept n.scope, #[], ?_, ?_⟩
  · change (change m.scope).without x = (change n.scope).without x
    rw [blind, blind, alike.scope]
  · simp [setScope]
  · simp [setScope]

theorem inStep_setLocal {name : String} (other : name ≠ x) (v : Value) :
    InStep x m n (setScope (m.scope.setLocal name v)) (setScope (n.scope.setLocal name v)) :=
  inStep_setScope _ (fun sc => Scope.setLocal_without sc v other)
    fun sc => Scope.bindings_setLocal sc v other

theorem inStep_setGlobal (name : String) (v : Value) :
    InStep x m n (setScope (m.scope.setGlobal name v)) (setScope (n.scope.setGlobal name v)) :=
  inStep_setScope (·.setGlobal name v) (fun _ => rfl) fun _ => rfl

theorem inStep_setLastError (message : String) :
    InStep x m n (setScope (m.scope.setLastError message))
      (setScope (n.scope.setLastError message)) :=
  inStep_setScope (·.setLastError message) (fun _ => rfl) fun _ => rfl

end Eval
end FlowScript
