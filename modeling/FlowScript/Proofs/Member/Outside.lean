import FlowScript.Machine
import FlowScript.Proofs.Member.Assign

/-!
Writes outside the bounds of an array. Nothing is stored, but the right-hand side is still combined
with null, and where it is an array, the combination is carried out in place. Main statement: a sum
leaves every array as it was, and a difference changes the sign of the numbers in the arrays that
the right-hand side is or holds, so exactly such numbers tell whether the write had an effect.
-/
namespace FlowScript

namespace Operator

def fromNull (op : BinaryOp) : Value → Value
  | .number x => if op = .subtract then .number (0.0 - x) else .number x
  | v => v

theorem fromNull_add (v : Value) : fromNull .add v = v := by
  cases v <;> rfl

theorem map_fromNull_eq_self {values : List Value} :
    values.map (fromNull .subtract) = values ↔ ∀ x, .number x ∈ values → 0.0 - x = x := by
  have pointwise : values.map (fromNull .subtract) = values.map id ↔ _ := List.map_inj_left
  rw [List.map_id] at pointwise
  rw [pointwise]
  constructor
  · intro fixed x member
    exact Value.number.inj (fixed (.number x) member)
  · intro fixed v member
    cases v with
    | number x => exact congrArg Value.number (fixed x member)
    | _ => rfl

theorem scalar_null {s : Store} {op : BinaryOp} (sum : op = .add ∨ op = .subtract) {b v : Value}
    (done : scalar s op .null b = .ok v) : v = fromNull op b := by
  rcases sum with rfl | rfl
  · cases b <;> cases done <;> rfl
  · cases b <;> cases done <;> rfl

theorem mapM_map {α β γ : Type} {f : α → Except RunError β} {g : β → γ} {h : α → γ} {xs : List α}
    {ys : List β} (each : ∀ x y, f x = .ok y → g y = h x) (done : xs.mapM f = .ok ys) :
    ys.map g = xs.map h := by
  induction xs generalizing ys with
  | nil =>
    cases done
    rfl
  | cons x rest ih =>
    rw [List.mapM_cons] at done
    cases first : f x with
    | error e => simp [first, bind, Except.bind] at done
    | ok y =>
      cases later : rest.mapM f with
      | error e => simp [first, later, bind, Except.bind] at done
      | ok ys' =>
        simp only [first, later, bind, Except.bind, pure, Except.pure, Except.ok.injEq] at done
        subst done
        rw [List.map_cons, List.map_cons, each x y first, ih later]

/-- Every array that the update writes gets its own elements, each put through `f`. -/
inductive Rewrites (f : Value → Value) (s : Store) : Update → Prop where
  | value (v : Value) : Rewrites f s (.value v)
  | array {target : Handle} {items : List Update}
      (elements : items.map Update.result = (s.items target).map f)
      (inner : ∀ u ∈ items, Rewrites f s u) : Rewrites f s (.array target items)

theorem fill_ok {s : Store} {target : Handle} {items : List Update} {u : Update}
    (filled : fill s target items = .ok u) : u = .array target items := by
  unfold fill at filled
  split at filled
  · cases filled
  · cases filled
    rfl

theorem planWithin_null {s : Store} {op : BinaryOp} (sum : op = .add ∨ op = .subtract) (n : Nat)
    {b : Value} {u : Update} (planned : planWithin s op n .null b = .ok u) :
    u.result = fromNull op b ∧ Rewrites (fromNull op) s u := by
  induction n generalizing b u with
  | zero => cases planned
  | succ n ih =>
    rw [planWithin_succ] at planned
    cases b with
    | array r =>
      simp only [planStep, spread, List.mapM_map] at planned
      cases done : (s.items r).mapM fun y => planWithin s op n .null y with
      | error e =>
        simp only [Function.comp_def, done] at planned
        cases planned
      | ok items =>
        simp only [Function.comp_def, done] at planned
        obtain rfl := fill_ok planned
        refine ⟨rfl, .array (mapM_map (fun y u each => (ih each).1) done) ?_⟩
        intro u member
        obtain ⟨y, _, each⟩ := (mapM_ok done).2.1 u member
        exact (ih each).2
    | _ =>
      rcases planStep_ok planned with ⟨v, _, done, rfl⟩ | ⟨target, _, _, split, _⟩
      · exact ⟨scalar_null sum done, .value v⟩
      · cases split.inPlace

theorem commitAll_rewrites {f : Value → Value} {s : Store} {items : List Update}
    (fits : ∀ u ∈ items, u.Fits s)
    (each : ∀ u ∈ items, ∀ t, (∀ h, (t.items h).length = (s.items h).length) →
      ∀ h ∈ u.targets, (u.commit t).2.items h = (s.items h).map f)
    (t : Store) (lengths : ∀ h, (t.items h).length = (s.items h).length) (h : Handle)
    (target : h ∈ Update.allTargets items) :
    (Update.commitAll t items).2.items h = (s.items h).map f := by
  induction items generalizing t with
  | nil => simp [Update.allTargets] at target
  | cons u rest ih =>
    rw [List.forall_mem_cons] at fits each
    have after := Update.commit_lengths fits.1 lengths
    simp only [Update.commitAll]
    -- of several writes the last one counts, and all of them put the same elements there
    by_cases later : h ∈ Update.allTargets rest
    · exact ih fits.2 each.2 _ after later
    · have first : h ∈ u.targets := by simpa [Update.allTargets, later] using target
      rw [Update.commitAll_leaves_others rest later]
      exact each.1 t lengths h first

theorem commit_rewrites {f : Value → Value} {s t : Store} {u : Update} (fits : u.Fits s)
    (rewrites : Rewrites f s u) (lengths : ∀ h, (t.items h).length = (s.items h).length) :
    ∀ h ∈ u.targets, (u.commit t).2.items h = (s.items h).map f := by
  induction rewrites generalizing t with
  | value => simp [Update.targets]
  | @array own items elements inner ih =>
    cases fits with
    | array each apart size covers =>
      intro h target
      rw [Update.commit_array]
      by_cases root : h = own
      · subst root
        rw [Store.items_setItems_self, elements]
        rw [List.length_map, size, Update.commitAll_lengths each lengths]
      · rw [Store.items_setItems_of_ne root]
        have below : h ∈ Update.allTargets items := by simpa [Update.targets, root] using target
        refine commitAll_rewrites each ?_ t lengths h below
        intro u member t lengths
        exact ih u member (each u member) lengths

theorem target_of_reaches {s : Store} {op : BinaryOp} (sum : op.opClass = .arithmetic) {n : Nat}
    {b : Value} {u : Update} (planned : planWithin s op n .null b = .ok u) {h : Handle}
    (reach : s.Reaches b (.array h)) : h ∈ u.targets := by
  have fits := planWithin_fits n planned
  have closed : ∀ k ∈ u.targets, ∀ w ∈ s.items k, Update.Within u.targets w := by
    intro k target w member
    cases w with
    | array c => exact Or.inr ⟨c, Update.targets_cover fits target member, rfl⟩
    | dictionary d =>
      exact absurd member (planWithin_no_dictionary sum n (by simp) planned target d)
    | _ => exact Or.inl id
  have start : Update.Within u.targets b := by
    cases b with
    | array r => exact Or.inr ⟨r, Update.target_of_result (planWithin_result planned rfl) fits, rfl⟩
    | dictionary d =>
      cases n with
      | zero => cases planned
      | succ n =>
        rw [planWithin_succ] at planned
        rcases planStep_ok planned with ⟨v, _, done, _⟩ | ⟨target, _, _, split, _⟩
        · rw [arithmetic_dictionary sum] at done
          cases done
        · cases split.inPlace
    | _ => exact Or.inl id
  rcases Update.reaches_within closed start reach with scalar | ⟨k, target, same⟩
  · exact absurd trivial scalar
  · rwa [Value.array.inj same]

theorem binary_null {s t : Store} {op : BinaryOp} (sum : op = .add ∨ op = .subtract) {b v : Value}
    (done : binary s op .null b = .ok (v, t)) :
    t.dictionaries = s.dictionaries ∧ t.arrays.size = s.arrays.size ∧
      (∀ h, s.Reaches b (.array h) → t.items h = (s.items h).map (fromNull op)) ∧
      ∀ h, ¬ s.Reaches b (.array h) → t.items h = s.items h := by
  obtain ⟨u, planned, fits, _, rfl⟩ := binary_ok done
  have arithmetic : op.opClass = .arithmetic := by rcases sum with rfl | rfl <;> rfl
  refine ⟨Update.commit_dictionaries u s, Update.commit_arrays_size u s, ?_, ?_⟩
  · intro h reach
    exact commit_rewrites fits (planWithin_null sum _ planned).2 (fun _ => rfl) h
      (target_of_reaches arithmetic planned reach)
  · intro h apart
    refine Update.commit_leaves_others u ?_ s
    intro target
    rcases planWithin_targets _ planned target with ⟨⟨l, left⟩, _⟩ | reach
    · cases left
    · exact apart reach

end Operator

theorem Store.eq_of_items {s t : Store} (dictionaries : t.dictionaries = s.dictionaries)
    (size : t.arrays.size = s.arrays.size) (items : ∀ h, t.items h = s.items h) : t = s := by
  have arrays : t.arrays = s.arrays := by
    refine Array.ext size ?_
    intro h left right
    have same := items h
    simpa [Store.items, left, right] using same
  cases s
  cases t
  cases arrays
  cases dictionaries
  rfl

namespace Member

/-- The key is of the right kind, and the array has no element at its place. -/
def Outside (s : Store) (h : Handle) (key : Value) : Prop :=
  ∃ index, index? key = .ok index ∧ (index.bind fun i => (s.items h)[i]?) = none

theorem assign_outside {s : Store} {h : Handle} {key : Value} (outside : Outside s h key)
    (op : AssignOp) (rhs : Value) :
    assign s (.array h) key op rhs =
      match Operator.combine s op .null rhs with
      | .error e => (.error e, s)
      | .ok (_, t) => (.ok (.outside (t.items h).length), t) := by
  obtain ⟨index, named, none⟩ := outside
  unfold assign
  rw [named]
  dsimp only
  rw [none]
  cases index with
  | none => rfl
  | some i => rfl

/-- A difference is formed with an array, and in the arrays that it is or holds some number is not
    its own opposite. -/
def Negates (s : Store) (op : AssignOp) (rhs : Value) : Prop :=
  op = .subtractAssign ∧ ∃ h x, s.Reaches rhs (.array h) ∧ .number x ∈ s.items h ∧ 0.0 - x ≠ x

theorem combine_null {s t : Store} {op : AssignOp} {rhs v : Value}
    (done : Operator.combine s op .null rhs = .ok (v, t)) :
    t.dictionaries = s.dictionaries ∧ t.arrays.size = s.arrays.size ∧
      (∀ h, op = .subtractAssign → s.Reaches rhs (.array h) →
        t.items h = (s.items h).map (Operator.fromNull .subtract)) ∧
      ∀ h, ¬ (op = .subtractAssign ∧ s.Reaches rhs (.array h)) → t.items h = s.items h := by
  cases op with
  | assign =>
    cases done
    exact ⟨rfl, rfl, by simp, fun _ _ => rfl⟩
  | addAssign =>
    obtain ⟨dictionaries, size, reached, others⟩ := Operator.binary_null (.inl rfl) done
    refine ⟨dictionaries, size, by simp, ?_⟩
    intro h _
    by_cases reach : s.Reaches rhs (.array h)
    · rw [reached h reach, funext Operator.fromNull_add, List.map_id']
    · exact others h reach
  | subtractAssign =>
    obtain ⟨dictionaries, size, reached, others⟩ := Operator.binary_null (.inr rfl) done
    refine ⟨dictionaries, size, fun h _ => reached h, ?_⟩
    intro h apart
    exact others h fun reach => apart ⟨rfl, reach⟩

theorem combine_null_unchanged_iff {s t : Store} {op : AssignOp} {rhs v : Value}
    (done : Operator.combine s op .null rhs = .ok (v, t)) : t = s ↔ ¬ Negates s op rhs := by
  obtain ⟨dictionaries, size, reached, others⟩ := combine_null done
  constructor
  · rintro rfl ⟨minus, h, x, reach, member, turned⟩
    exact turned (Operator.map_fromNull_eq_self.mp (reached h minus reach).symm x member)
  · intro plain
    refine Store.eq_of_items dictionaries size ?_
    intro h
    by_cases changed : op = .subtractAssign ∧ s.Reaches rhs (.array h)
    · rw [reached h changed.1 changed.2, Operator.map_fromNull_eq_self]
      intro x member
      refine Classical.byContradiction fun turned => ?_
      exact plain ⟨changed.1, h, x, changed.2, member, turned⟩
    · exact others h changed

/-- A write outside of an array that succeeds yields null. It leaves the store as it was, unless a
    difference is formed with an array of numbers. It then turns the sign of every number in the
    arrays that the right-hand side is or holds, once, and does nothing else. -/
theorem outside_write_only_turns_signs {m n : Machine} {h : Handle} {key rhs v : Value}
    {op : AssignOp} (outside : Outside m.store h key)
    (done : Eval.assignMember (.array h) key op rhs m = (.ok v, n)) :
    v = .null ∧ (n.store = m.store ↔ ¬ Negates m.store op rhs) ∧
      n.store.dictionaries = m.store.dictionaries ∧
      (∀ k, op = .subtractAssign → m.store.Reaches rhs (.array k) →
        n.store.items k = (m.store.items k).map (Operator.fromNull .subtract)) ∧
      ∀ k, ¬ (op = .subtractAssign ∧ m.store.Reaches rhs (.array k)) →
        n.store.items k = m.store.items k := by
  unfold Eval.assignMember at done
  rw [assign_outside outside] at done
  cases combined : Operator.combine m.store op .null rhs with
  | error e =>
    rw [combined] at done
    cases done
  | ok p =>
    obtain ⟨next, t⟩ := p
    rw [combined] at done
    cases done
    obtain ⟨dictionaries, _, reached, others⟩ := combine_null combined
    exact ⟨rfl, combine_null_unchanged_iff combined, dictionaries, reached, others⟩

def lone (x : Float) : Machine :=
  { Machine.initial {} ⟨⟨2024, 1, 1⟩, 0, 0⟩ with store := single x }

theorem lone_outside (x : Float) : Outside (lone x).store 0 (.number (-1.0)) :=
  ⟨none, rfl, rfl⟩

theorem outside_write_only_turns_signs_lone :
    Outside (lone 1.0).store 0 (.number (-1.0)) ∧
      (Eval.assignMember (.array 0) (.number (-1.0)) .addAssign (.array 0) (lone 1.0)).1 = .ok .null ∧
      (Eval.assignMember (.array 0) (.number (-1.0)) .addAssign (.array 0) (lone 1.0)).2.store =
        (lone 1.0).store := by
  have outside := lone_outside 1.0
  have done : Eval.assignMember (.array 0) (.number (-1.0)) .addAssign (.array 0) (lone 1.0) =
      (.ok .null, _) := rfl
  obtain ⟨_, unchanged, _⟩ := outside_write_only_turns_signs outside done
  refine ⟨outside, congrArg Prod.fst done, unchanged.mpr ?_⟩
  rintro ⟨minus, _⟩
  cases minus

/-- A write outside of an array that subtracts the array itself succeeds and changes the array. -/
theorem outside_write_changes_array :
    (lone 1.0).store.Acyclic ∧ Outside (lone 1.0).store 0 (.number (-1.0)) ∧
      (Eval.assignMember (.array 0) (.number (-1.0)) .subtractAssign (.array 0) (lone 1.0)).1 =
        .ok .null ∧
      (Eval.assignMember (.array 0) (.number (-1.0)) .subtractAssign (.array 0)
        (lone 1.0)).2.store.items 0 = [.number (-1.0)] ∧
      (lone 1.0).store.items 0 = [.number 1.0] ∧ (-1.0 : Float) ≠ 1.0 :=
  ⟨(single_sound 1.0).acyclic, lone_outside 1.0, rfl, rfl, rfl, by decide⟩

end Member
end FlowScript
