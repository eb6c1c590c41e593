import FlowScript.Machine
import FlowScript.Proofs.Broadcast.Plan

/-!
Broadcasts against a pure reference. The reference works on the deep contents of the operands, taken
before anything is written; its result names, for every array in it, the array that is changed in
place there. Main statement: an operator with an array on either side does what the reference says,
or nothing.
-/
namespace FlowScript.Operator

def contentsWithin (s : Store) : Nat → Value → Update
  | n + 1, .array h => .array h ((s.items h).map (contentsWithin s n))
  | _, v => .value v

/-- The deep contents of a value, in the form of the update that would write them back. -/
def contents (s : Store) (v : Value) : Update := contentsWithin s s.depthBound v

theorem contentsWithin_succ {s : Store} (acyclic : s.Acyclic) (n : Nat) (v : Value)
    (enough : arrayWeight s v < n) : contentsWithin s (n + 1) v = contentsWithin s n v := by
  induction n generalizing v with
  | zero => omega
  | succ n ih =>
    cases v with
    | array h =>
      simp only [contentsWithin, Update.array.injEq, true_and]
      refine List.map_congr_left ?_
      intro w member
      exact ih w (by have := arrayWeight_child acyclic (l := h) (v := w) member; omega)
    | _ => rfl

theorem contents_array {s : Store} (acyclic : s.Acyclic) (h : Handle) :
    contents s (.array h) = .array h ((s.items h).map (contents s)) := by
  unfold contents Store.depthBound
  rw [contentsWithin]
  refine congrArg (Update.array h) (List.map_congr_left ?_)
  intro w member
  refine (contentsWithin_succ acyclic s.size w ?_).symm
  have lighter := arrayWeight_child acyclic (l := h) (v := w) member
  have bound := Nat.le_trans (arrayWeight_le s (.array h)) (Store.weight_le_size s (.array h))
  omega

theorem contents_scalar {s : Store} {v : Value} (scalar : ∀ l, v ≠ .array l) :
    contents s v = .value v := by
  cases v with
  | array h => exact absurd rfl (scalar h)
  | _ => rfl

/-- Two arrays of one length go position by position, an array and another value go element by
    element, and two other values go to the scalar rule. The first error from the left counts. -/
def elementwise (s : Store) (op : BinaryOp) (a b : Update) : Except RunError Update :=
  match a, b with
  | .array l xs, .array _ ys =>
    if xs.length ≠ ys.length then .error (.arrayLengthMismatch op xs.length ys.length)
    else ((xs.attach.zip ys.attach).mapM fun p => elementwise s op p.1.val p.2.val).map (.array l)
  | .array l xs, .value b => (xs.mapM fun x => elementwise s op x (.value b)).map (.array l)
  | .value a, .array r ys => (ys.mapM fun y => elementwise s op (.value a) y).map (.array r)
  | .value a, .value b => (scalar s op a b).map .value
termination_by sizeOf a + sizeOf b
decreasing_by
  · have left := List.sizeOf_lt_of_mem p.1.property
    have right := List.sizeOf_lt_of_mem p.2.property
    simp only [Update.array.sizeOf_spec]
    omega
  · decreasing_tactic
  · decreasing_tactic

theorem elementwise_arrays (s : Store) (op : BinaryOp) (l r : Handle) (xs ys : List Update) :
    elementwise s op (.array l xs) (.array r ys) =
      if xs.length ≠ ys.length then .error (.arrayLengthMismatch op xs.length ys.length)
      else ((xs.zip ys).mapM fun p => elementwise s op p.1 p.2).map (.array l) := by
  have plain : ((xs.attach.zip ys.attach).mapM fun p => elementwise s op p.1.val p.2.val) =
      (xs.zip ys).mapM fun p => elementwise s op p.1 p.2 := by
    calc
      _ = ((xs.attach.map Subtype.val).zip (ys.attach.map Subtype.val)).mapM
            fun p => elementwise s op p.1 p.2 := by
        rw [List.zip_map, List.mapM_map]
        rfl
      _ = _ := by rw [List.attach_map_subtype_val, List.attach_map_subtype_val]
  rw [elementwise, plain]

theorem elementwise_contents {s : Store} (acyclic : s.Acyclic) (op : BinaryOp) (a b : Value) :
    elementwise s op (contents s a) (contents s b) =
      match spread s op a b with
      | .error e => .error e
      | .ok none => (scalar s op a b).map .value
      | .ok (some (target, pairs)) =>
        (pairs.mapM fun p => elementwise s op (contents s p.1) (contents s p.2)).map
          (.array target) := by
  cases a with
  | array l =>
    cases b with
    | array r =>
      simp only [contents_array acyclic, elementwise_arrays, List.length_map, List.zip_map,
        List.mapM_map, spread]
      split <;> rfl
    | _ =>
      simp only [contents_array acyclic, contents_scalar, elementwise, List.mapM_map, spread, ne_eq,
        reduceCtorEq, not_false_eq_true, implies_true]
      rfl
  | _ =>
    cases b with
    | array r =>
      simp only [contents_array acyclic, contents_scalar, elementwise, List.mapM_map, spread, ne_eq,
        reduceCtorEq, not_false_eq_true, implies_true]
      rfl
    | _ =>
      simp only [contents_scalar, elementwise, spread, ne_eq, reduceCtorEq, not_false_eq_true,
        implies_true]

/-- A plan is the reference's result; a failed plan met the reference's error or a cycle. -/
def Follows {α : Type} (planned reference : Except RunError α) : Prop :=
  match planned with
  | .ok x => reference = .ok x
  | .error e => e = .cyclicReference .array ∨ reference = .error e

theorem mapM_follows {α β : Type} {f g : α → Except RunError β} {xs : List α}
    (each : ∀ x ∈ xs, Follows (f x) (g x)) : Follows (xs.mapM f) (xs.mapM g) := by
  induction xs with
  | nil => exact rfl
  | cons x rest ih =>
    have first := each x (by simp)
    have later := ih (fun y member => each y (by simp [member]))
    rw [List.mapM_cons, List.mapM_cons]
    cases head : f x with
    | error e =>
      rw [head] at first
      rcases first with cycle | same
      · exact Or.inl cycle
      · exact Or.inr (by rw [same]; rfl)
    | ok y =>
      rw [head] at first
      rw [show g x = .ok y from first]
      cases tail : rest.mapM f with
      | error e =>
        rw [tail] at later
        rcases later with cycle | same
        · exact Or.inl cycle
        · exact Or.inr (by rw [same]; rfl)
      | ok ys =>
        rw [tail] at later
        rw [show rest.mapM g = .ok ys from later]
        exact rfl

theorem planWithin_follows {s : Store} (acyclic : s.Acyclic) (op : BinaryOp) (n : Nat) (a b : Value) :
    Follows (planWithin s op n a b) (elementwise s op (contents s a) (contents s b)) := by
  induction n generalizing a b with
  | zero => exact Or.inl rfl
  | succ n ih =>
    rw [planWithin_succ, planStep, elementwise_contents acyclic]
    cases spread s op a b with
    | error e => exact Or.inr rfl
    | ok split =>
      cases split with
      | none =>
        cases scalar s op a b with
        | ok v => exact rfl
        | error e => exact Or.inr rfl
      | some split =>
        obtain ⟨target, pairs⟩ := split
        dsimp only
        have each := mapM_follows fun p (_ : p ∈ pairs) => ih p.1 p.2
        cases planned : pairs.mapM fun p => planWithin s op n p.1 p.2 with
        | error e =>
          rw [planned] at each
          rcases each with cycle | same
          · exact Or.inl cycle
          · exact Or.inr (by rw [same]; rfl)
        | ok items =>
          rw [planned] at each
          rw [show (pairs.mapM fun p => elementwise s op (contents s p.1) (contents s p.2)) = .ok items
            from each]
          dsimp only [fill]
          split
          · exact Or.inl rfl
          · exact rfl

inductive Written (s : Store) : Update → Prop where
  | value {v : Value} (scalar : ∀ l, v ≠ .array l) : Written s (.value v)
  | array {target : Handle} {items : List Update} (holds : s.items target = items.map Update.result)
      (inner : ∀ u ∈ items, Written s u) : Written s (.array target items)

theorem contents_of_written {s : Store} (acyclic : s.Acyclic) {u : Update} (written : Written s u) :
    contents s u.result = u := by
  induction written with
  | value scalar => exact contents_scalar scalar
  | @array target items holds inner ih =>
    rw [Update.result, contents_array acyclic, holds, List.map_map]
    refine congrArg (Update.array target) ?_
    calc
      items.map (contents s ∘ Update.result) = items.map id := List.map_congr_left ih
      _ = items := List.map_id items

theorem written_frame {s t : Store} {u : Update} (written : Written s u)
    (same : ∀ h ∈ u.targets, t.items h = s.items h) : Written t u := by
  induction written with
  | value scalar => exact .value scalar
  | @array target items holds inner ih =>
    refine .array ?_ ?_
    · rw [same target (by simp [Update.targets]), holds]
    · intro u member
      refine ih u member ?_
      intro h below
      exact same h (List.mem_cons_of_mem _ (Update.mem_allTargets.mpr ⟨u, member, below⟩))

theorem commitAll_written {s : Store} {items : List Update}
    (each : ∀ u ∈ items, ∀ t, (∀ h, (t.items h).length = (s.items h).length) → Written (u.commit t).2 u)
    (fits : ∀ u ∈ items, u.Fits s) (nodup : (Update.allTargets items).Nodup) (t : Store)
    (lengths : ∀ h, (t.items h).length = (s.items h).length) :
    ∀ u ∈ items, Written (Update.commitAll t items).2 u := by
  induction items generalizing t with
  | nil => simp
  | cons u rest ih =>
    rw [Update.allTargets, List.nodup_append] at nodup
    have after := Update.commit_lengths (fits u (by simp)) lengths
    intro v member
    rcases List.mem_cons.mp member with same | later
    · subst same
      refine written_frame (each v (by simp) t lengths) ?_
      intro h target
      refine Update.commitAll_leaves_others rest ?_ _
      intro again
      exact nodup.2.2 h target h again rfl
    · exact ih (fun u listed => each u (by simp [listed])) (fun u listed => fits u (by simp [listed]))
        nodup.2.1 _ after v later

theorem commit_written {s t : Store} {u : Update} (fits : u.Fits s) (nodup : u.targets.Nodup)
    (lengths : ∀ h, (t.items h).length = (s.items h).length) : Written (u.commit t).2 u := by
  induction fits generalizing t with
  | value scalar =>
    refine .value ?_
    rintro l rfl
    exact scalar trivial
  | @array own items inner apart size covers ih =>
    rw [Update.targets, List.nodup_cons] at nodup
    have middle := commitAll_written (s := s)
      (fun u member t lengths => ih u member (Update.targets_nodup_of_mem nodup.2 member) lengths)
      inner nodup.2 t lengths
    rw [Update.commit_array]
    refine .array ?_ ?_
    · refine Store.items_setItems_self ?_
      rw [List.length_map, size, Update.commitAll_lengths inner lengths]
    · intro u member
      refine written_frame (middle u member) ?_
      intro h below
      refine Store.items_setItems_of_ne ?_ _
      rintro rfl
      exact nodup.1 (Update.mem_allTargets.mpr ⟨u, member, below⟩)

theorem evalBinary_cases (op : BinaryOp) (a b : Value) (m : Machine) :
    (∃ e, plan m.store op a b = .error e ∧ Eval.binary op a b m = (.error e, m)) ∨
      ∃ u, plan m.store op a b = .ok u ∧
        Eval.binary op a b m = (.ok u.result, { m with store := (u.commit m.store).2 }) := by
  unfold Eval.binary binary
  cases plan m.store op a b with
  | error e => exact Or.inl ⟨e, rfl, rfl⟩
  | ok u => exact Or.inr ⟨u, rfl, by simp [← Update.commit_result m.store u]⟩

/-- An operator with an array on either side agrees with the pure reference on the contents of its
    operands. When it fails, nothing has changed, and the error is the reference's or a cycle; when
    the reference fails, it fails. When it succeeds, so does the reference, the result is the left
    operand if that is an array and else the right one, and it has the contents that the reference
    says, unless some array is changed in place at two positions. Only arrays that are changed in
    place differ afterwards, all of them are the operands or inside them, and all arrays keep their
    lengths. -/
theorem broadcast_agrees_with_elementwise (m : Machine) (op : BinaryOp) (a b : Value)
    (acyclic : m.store.Acyclic) (array : (∃ l, a = .array l) ∨ ∃ r, b = .array r) :
    (∀ e n, Eval.binary op a b m = (.error e, n) →
      n = m ∧ (e = .cyclicReference .array ∨
        elementwise m.store op (contents m.store a) (contents m.store b) = .error e)) ∧
    (∀ e, elementwise m.store op (contents m.store a) (contents m.store b) = .error e →
      ∃ e', Eval.binary op a b m = (.error e', m) ∧ (e' = e ∨ e' = .cyclicReference .array)) ∧
    (∀ v n, Eval.binary op a b m = (.ok v, n) →
      ∃ u, elementwise m.store op (contents m.store a) (contents m.store b) = .ok u ∧
        (∀ l, a = .array l → v = .array l) ∧ ((∀ l, a ≠ .array l) → v = b) ∧
        (u.targets.Nodup → contents n.store v = u) ∧
        n.store.dictionaries = m.store.dictionaries ∧
        n.store.arrays.size = m.store.arrays.size ∧
        (∀ h, h ∉ u.targets → n.store.items h = m.store.items h) ∧
        (∀ h ∈ u.targets, m.store.Reaches a (.array h) ∨ m.store.Reaches b (.array h)) ∧
        ∀ h, (n.store.items h).length = (m.store.items h).length) := by
  have follows := planWithin_follows acyclic op m.store.depthBound a b
  change Follows (plan m.store op a b) _ at follows
  rcases evalBinary_cases op a b m with ⟨e, planned, run⟩ | ⟨u, planned, run⟩
  · rw [planned] at follows
    rw [run]
    refine ⟨?_, ?_, ?_⟩
    · rintro e' n ⟨⟩
      exact ⟨rfl, follows⟩
    · intro e' failed
      refine ⟨e, rfl, ?_⟩
      rcases follows with cycle | same
      · exact Or.inr cycle
      · rw [failed] at same
        exact Or.inl (Except.error.inj same).symm
    · rintro v n ⟨⟩
  · rw [planned] at follows
    rw [run]
    refine ⟨?_, ?_, ?_⟩
    · rintro e n ⟨⟩
    · intro e failed
      rw [show elementwise m.store op (contents m.store a) (contents m.store b) = .ok u from follows]
        at failed
      cases failed
    · rintro v n ⟨⟩
      have fits := planWithin_fits _ planned
      refine ⟨u, follows, ?_, ?_, ?_, Update.commit_dictionaries u _, Update.commit_arrays_size u _,
        fun h outside => Update.commit_leaves_others u outside _, ?_,
        Update.commit_lengths fits fun _ => rfl⟩
      · rintro l rfl
        exact planWithin_result planned rfl
      · intro scalar
        obtain ⟨r, rfl⟩ := array.resolve_left fun ⟨l, eq⟩ => scalar l eq
        refine planWithin_result planned ?_
        cases a <;> simp_all [inPlace]
      · intro nodup
        exact contents_of_written (Update.commit_acyclic fits acyclic)
          (commit_written fits nodup fun _ => rfl)
      · intro h target
        rcases planWithin_targets _ planned target with ⟨_, reach⟩ | reach
        · exact Or.inl reach
        · exact Or.inr reach

def nested (t : String) : Machine :=
  { Machine.initial {} ⟨⟨2024, 1, 1⟩, 0, 0⟩ with
    store := ((Store.empty.newArray [.text t]).2.newArray [.array 0, .text t]).2 }

theorem nested_sound (t : String) : (nested t).store.Sound := by
  refine Store.sound_newArray (Store.sound_newArray Store.empty_sound ?_) ?_
  · simp [Store.Knows]
  · simp [Store.Knows, Store.newArray]

theorem broadcast_agrees_with_elementwise_nested :
    (nested "a").store.Acyclic ∧
      Eval.binary .add (.array 1) (.text "b") (nested "a") = (.ok (.array 1), nested "ab") ∧
      ∃ u, elementwise (nested "a").store .add (contents (nested "a").store (.array 1))
          (contents (nested "a").store (.text "b")) = .ok u ∧
        (u.targets.Nodup → contents (nested "ab").store (.array 1) = u) := by
  have acyclic := (nested_sound "a").acyclic
  have run : Eval.binary .add (.array 1) (.text "b") (nested "a") =
      (.ok (.array 1), nested "ab") := rfl
  obtain ⟨u, same, _, _, written, _⟩ :=
    (broadcast_agrees_with_elementwise (nested "a") .add (.array 1) (.text "b") acyclic
      (Or.inl ⟨1, rfl⟩)).2.2 _ _ run
  exact ⟨acyclic, run, u, same, written⟩

end FlowScript.Operator
