import FlowScript.Proofs.Broadcast.Commit

/-!
Planning a broadcast. Each layer of the recursion splits an operation on arrays into operations on
their elements. Main statements: what is planned fits the store, so that carrying it out keeps the
store acyclic, and on an acyclic store the recursion needs no bound on its depth.
-/
namespace FlowScript.Operator

theorem calculate_scalar {op : BinaryOp} {x y : Float} {v : Value} (done : calculate op x y = .ok v) :
    ¬ v.IsContainer := by
  unfold calculate at done
  split at done
  all_goals try split at done
  all_goals cases done
  all_goals exact id

theorem arithmetic_scalar {s : Store} {op : BinaryOp} {a b v : Value}
    (done : arithmetic s op a b = .ok v) : ¬ v.IsContainer := by
  unfold arithmetic at done
  split at done
  all_goals try split at done
  all_goals first
    | exact calculate_scalar done
    | (cases done <;> exact id)

theorem equalityOnly_scalar {op : BinaryOp} {a b v : Value} {equal : Bool}
    (done : equalityOnly op a b equal = .ok v) : ¬ v.IsContainer := by
  unfold equalityOnly at done
  split at done
  all_goals cases done
  exact id

theorem compareByTruth_scalar {s : Store} {op : BinaryOp} {a b v : Value}
    (done : compareByTruth s op a b = .ok v) : ¬ v.IsContainer := by
  unfold compareByTruth at done
  split at done
  all_goals cases done
  exact id

theorem comparison_scalar {s : Store} {op : BinaryOp} {a b v : Value}
    (done : comparison s op a b = .ok v) : ¬ v.IsContainer := by
  unfold comparison at done
  split at done
  all_goals try split at done
  all_goals first
    | exact equalityOnly_scalar done
    | exact compareByTruth_scalar done
    | (cases done; exact id)

theorem logical_scalar {s : Store} {op : BinaryOp} {a b v : Value}
    (done : logical s op a b = .ok v) : ¬ v.IsContainer := by
  unfold logical at done
  split at done
  all_goals cases done
  all_goals exact id

theorem scalar_result {s : Store} {op : BinaryOp} {a b v : Value} (done : scalar s op a b = .ok v) :
    ¬ v.IsContainer := by
  unfold scalar at done
  split at done
  · exact arithmetic_scalar done
  · exact comparison_scalar done
  · exact logical_scalar done

theorem arithmetic_dictionary {s : Store} {op : BinaryOp} (sum : op.opClass = .arithmetic) (a : Value)
    (d : Handle) : scalar s op a (.dictionary d) = .error (illegal op a (.dictionary d)) := by
  cases a <;> simp [scalar, sum, arithmetic]

/-- How an operation splits up: not at all on two scalars, else into the array that is changed in
    place and the operands of each of its new elements. -/
def spread (s : Store) (op : BinaryOp) :
    Value → Value → Except RunError (Option (Handle × List (Value × Value)))
  | .array l, .array r =>
    let (xs, ys) := (s.items l, s.items r)
    if xs.length ≠ ys.length then .error (.arrayLengthMismatch op xs.length ys.length)
    else .ok (some (l, xs.zip ys))
  | .array l, b => .ok (some (l, (s.items l).map fun x => (x, b)))
  | a, .array r => .ok (some (r, (s.items r).map fun y => (a, y)))
  | _, _ => .ok none

def planStep (s : Store) (op : BinaryOp) (each : Value → Value → Except RunError Update)
    (a b : Value) : Except RunError Update :=
  match spread s op a b with
  | .error e => .error e
  | .ok none =>
    match scalar s op a b with
    | .ok v => .ok (.value v)
    | .error e => .error e
  | .ok (some (target, pairs)) =>
    match pairs.mapM fun p => each p.1 p.2 with
    | .ok items => fill s target items
    | .error e => .error e

theorem planWithin_succ (s : Store) (op : BinaryOp) (n : Nat) (a b : Value) :
    planWithin s op (n + 1) a b = planStep s op (planWithin s op n) a b := by
  cases a <;> cases b <;> simp only [planWithin, planStep, spread, List.mapM_map]
  case array.array => split <;> rfl
  all_goals rfl

def inPlace : Value → Value → Option Handle
  | .array l, _ => some l
  | _, .array r => some r
  | _, _ => none

structure Spread (s : Store) (a b : Value) (target : Handle) (pairs : List (Value × Value)) :
    Prop where
  inPlace : inPlace a b = some target
  size : pairs.length = (s.items target).length
  covers : ∀ x ∈ s.items target, ∃ p ∈ pairs,
    a = .array target ∧ p.1 = x ∨ (∀ l, a ≠ .array l) ∧ p = (a, x)
  left : ∀ p ∈ pairs, (∃ l, a = .array l ∧ s.HasChild a p.1) ∨ (∀ l, a ≠ .array l) ∧ p.1 = a
  right : ∀ p ∈ pairs, (∃ r, b = .array r ∧ s.HasChild b p.2) ∨ (∀ r, b ≠ .array r) ∧ p.2 = b

theorem spread_pairs {s : Store} {op : BinaryOp} {a b : Value} {target : Handle}
    {pairs : List (Value × Value)} (split : spread s op a b = .ok (some (target, pairs))) :
    Spread s a b target pairs := by
  unfold spread at split
  split at split
  · rename_i l r
    dsimp only at split
    split at split
    · cases split
    · rename_i same
      have lengths : (s.items l).length = (s.items r).length := Decidable.not_not.mp same
      cases split
      refine ⟨rfl, by simp [lengths], ?_, ?_, ?_⟩
      · intro x nested
        rw [← List.map_fst_zip (Nat.le_of_eq lengths)] at nested
        obtain ⟨p, member, eq⟩ := List.mem_map.mp nested
        exact ⟨p, member, Or.inl ⟨rfl, eq⟩⟩
      · intro p member
        exact Or.inl ⟨_, rfl, (List.of_mem_zip member).1⟩
      · intro p member
        exact Or.inl ⟨_, rfl, (List.of_mem_zip member).2⟩
  · rename_i l b scalar
    cases split
    refine ⟨rfl, by simp, ?_, ?_, ?_⟩
    · intro x nested
      exact ⟨(x, b), List.mem_map.mpr ⟨_, nested, rfl⟩, Or.inl ⟨rfl, rfl⟩⟩
    · intro p member
      obtain ⟨x, listed, rfl⟩ := List.mem_map.mp member
      exact Or.inl ⟨_, rfl, listed⟩
    · intro p member
      obtain ⟨x, listed, rfl⟩ := List.mem_map.mp member
      exact Or.inr ⟨scalar, rfl⟩
  · rename_i r scalar
    cases split
    refine ⟨?_, by simp, ?_, ?_, ?_⟩
    · cases a <;> simp_all [Operator.inPlace]
    · intro x nested
      exact ⟨(a, x), List.mem_map.mpr ⟨_, nested, rfl⟩, Or.inr ⟨scalar, rfl⟩⟩
    · intro p member
      obtain ⟨y, listed, rfl⟩ := List.mem_map.mp member
      exact Or.inr ⟨scalar, rfl⟩
    · intro p member
      obtain ⟨y, listed, rfl⟩ := List.mem_map.mp member
      exact Or.inl ⟨_, rfl, listed⟩
  · cases split

theorem inPlace_operand {a b : Value} {c : Handle} (place : inPlace a b = some c) :
    a = .array c ∨ b = .array c := by
  cases a <;> cases b <;> simp_all [inPlace]

theorem spread_none {s : Store} {op : BinaryOp} {a b : Value} (split : spread s op a b = .ok none) :
    (∀ l, a ≠ .array l) ∧ ∀ r, b ≠ .array r := by
  cases a <;> cases b <;> simp_all [spread]
  split at split <;> cases split

theorem Spread.covers_array {s : Store} {a b : Value} {target : Handle}
    {pairs : List (Value × Value)} (split : Spread s a b target pairs) {c : Handle}
    (nested : .array c ∈ s.items target) : ∃ p ∈ pairs, Operator.inPlace p.1 p.2 = some c := by
  obtain ⟨p, listed, ⟨_, left⟩ | ⟨scalar, right⟩⟩ := split.covers _ nested
  · exact ⟨p, listed, by rw [left]; rfl⟩
  · refine ⟨p, listed, ?_⟩
    rw [right]
    cases a <;> simp_all [Operator.inPlace]

theorem mapM_ok {α β : Type} {f : α → Except RunError β} {xs : List α} {ys : List β}
    (done : xs.mapM f = .ok ys) :
    ys.length = xs.length ∧ (∀ y ∈ ys, ∃ x ∈ xs, f x = .ok y) ∧ ∀ x ∈ xs, ∃ y ∈ ys, f x = .ok y := by
  induction xs generalizing ys with
  | nil =>
    cases done
    simp
  | cons x rest ih =>
    rw [List.mapM_cons] at done
    cases first : f x with
    | error e => simp [first, bind, Except.bind] at done
    | ok y =>
      cases later : rest.mapM f with
      | error e => simp [first, later, bind, Except.bind] at done
      | ok ys' =>
        simp only [first, later, bind, Except.bind, pure, Except.pure, Except.ok.injEq] at done
        subst done
        obtain ⟨size, back, forth⟩ := ih later
        refine ⟨by simp [size], ?_, ?_⟩
        · intro z member
          rcases List.mem_cons.mp member with same | tail
          · subst same
            exact ⟨x, by simp, first⟩
          · obtain ⟨w, listed, eq⟩ := back z tail
            exact ⟨w, by simp [listed], eq⟩
        · intro z member
          rcases List.mem_cons.mp member with same | tail
          · subst same
            exact ⟨y, by simp, first⟩
          · obtain ⟨w, listed, eq⟩ := forth z tail
            exact ⟨w, by simp [listed], eq⟩

theorem not_holds_of_anyHolds {s : Store} {target : Handle} {items : List Update}
    (free : Update.anyHolds s target items = false) : ∀ u ∈ items, u.holds s target = false := by
  induction items with
  | nil => simp
  | cons u rest ih =>
    simp only [Update.anyHolds, Bool.or_eq_false_iff] at free
    intro v member
    rcases List.mem_cons.mp member with same | later
    · rw [same, free.1]
    · exact ih free.2 v later

theorem apart_of_not_holds {s : Store} {target : Handle} (u : Update)
    (free : u.holds s target = false) : target ∉ u.targets := by
  induction u with
  | value v => simp [Update.targets]
  | array own items ih =>
    simp only [Update.holds, Bool.or_eq_false_iff, beq_eq_false_iff_ne] at free
    intro written
    rcases List.mem_cons.mp written with root | below
    · exact free.1 root.symm
    · obtain ⟨u, member, inner⟩ := Update.mem_allTargets.mp below
      exact ih u member (not_holds_of_anyHolds free.2 u member) inner

theorem planStep_ok {s : Store} {op : BinaryOp} {each : Value → Value → Except RunError Update}
    {a b : Value} {u : Update} (planned : planStep s op each a b = .ok u) :
    (∃ v, inPlace a b = none ∧ scalar s op a b = .ok v ∧ u = .value v) ∨
      ∃ target pairs items, Spread s a b target pairs ∧
        (pairs.mapM fun p => each p.1 p.2) = .ok items ∧
        (∀ v ∈ items, target ∉ v.targets) ∧ u = .array target items := by
  unfold planStep at planned
  split at planned
  · cases planned
  · rename_i split
    have scalars := spread_none split
    split at planned
    · rename_i v done
      cases planned
      refine Or.inl ⟨v, ?_, done, rfl⟩
      cases a <;> cases b <;> simp_all [inPlace]
    · cases planned
  · rename_i target pairs split
    split at planned
    · rename_i items done
      unfold fill at planned
      split at planned
      · cases planned
      · rename_i free
        cases planned
        have apart := not_holds_of_anyHolds (Bool.eq_false_iff.mpr free)
        exact Or.inr ⟨target, pairs, items, spread_pairs split, done,
          fun v member => apart_of_not_holds v (apart v member), rfl⟩
    · cases planned

theorem planWithin_result {s : Store} {op : BinaryOp} {n : Nat} {a b : Value} {u : Update}
    (planned : planWithin s op n a b = .ok u) {c : Handle} (target : inPlace a b = some c) :
    u.result = .array c := by
  cases n with
  | zero => cases planned
  | succ n =>
    rw [planWithin_succ] at planned
    rcases planStep_ok planned with ⟨v, none, _, _⟩ | ⟨t, pairs, items, split, _, _, eq⟩
    · rw [target] at none
      cases none
    · subst eq
      rw [split.inPlace] at target
      rw [Update.result, Option.some.inj target]

theorem planWithin_fits {s : Store} {op : BinaryOp} (n : Nat) {a b : Value} {u : Update}
    (planned : planWithin s op n a b = .ok u) : u.Fits s := by
  induction n generalizing a b u with
  | zero => cases planned
  | succ n ih =>
    rw [planWithin_succ] at planned
    rcases planStep_ok planned with ⟨v, _, done, eq⟩ | ⟨target, pairs, items, split, done, apart, eq⟩
    · subst eq
      exact .value (scalar_result done)
    · subst eq
      obtain ⟨size, back, forth⟩ := mapM_ok done
      refine .array ?_ apart (size.trans split.size) ?_
      · intro u member
        obtain ⟨p, _, inner⟩ := back u member
        exact ih inner
      · intro c nested
        obtain ⟨p, listed, place⟩ := split.covers_array nested
        obtain ⟨u, member, inner⟩ := forth p listed
        exact ⟨u, member, planWithin_result inner place⟩

theorem planWithin_targets {s : Store} {op : BinaryOp} (n : Nat) {a b : Value} {u : Update}
    (planned : planWithin s op n a b = .ok u) {h : Handle} (target : h ∈ u.targets) :
    (∃ l, a = .array l) ∧ s.Reaches a (.array h) ∨ s.Reaches b (.array h) := by
  induction n generalizing a b u with
  | zero => cases planned
  | succ n ih =>
    rw [planWithin_succ] at planned
    rcases planStep_ok planned with ⟨v, _, _, eq⟩ | ⟨own, pairs, items, split, done, _, eq⟩
    · subst eq
      simp [Update.targets] at target
    · subst eq
      rcases List.mem_cons.mp target with root | below
      · subst root
        rcases inPlace_operand split.inPlace with left | right
        · exact Or.inl ⟨⟨h, left⟩, by rw [left]⟩
        · exact Or.inr (by rw [right])
      · obtain ⟨u, member, inner⟩ := Update.mem_allTargets.mp below
        obtain ⟨p, listed, each⟩ := (mapM_ok done).2.1 u member
        rcases ih each inner with ⟨⟨k, array⟩, reach⟩ | reach
        · rcases split.left p listed with ⟨l, left, child⟩ | ⟨scalar, same⟩
          · exact Or.inl ⟨⟨l, left⟩, reach.head child⟩
          · exact absurd (same ▸ array) (scalar k)
        · rcases split.right p listed with ⟨r, _, child⟩ | ⟨_, same⟩
          · exact Or.inr (reach.head child)
          · exact Or.inr (same ▸ reach)

theorem right_array_of_target {s : Store} {op : BinaryOp} {n : Nat} {a b : Value} {u : Update}
    (planned : planWithin s op n a b = .ok u) {h : Handle} (target : h ∈ u.targets)
    (scalar : ∀ l, a ≠ .array l) : ∃ r, b = .array r := by
  cases n with
  | zero => cases planned
  | succ n =>
    rw [planWithin_succ] at planned
    rcases planStep_ok planned with ⟨v, _, _, eq⟩ | ⟨own, _, _, split, _⟩
    · subst eq
      simp [Update.targets] at target
    · rcases inPlace_operand split.inPlace with left | right
      · exact absurd left (scalar own)
      · exact ⟨own, right⟩

theorem planWithin_no_dictionary {s : Store} {op : BinaryOp} (sum : op.opClass = .arithmetic)
    (n : Nat) {a b : Value} {u : Update} (scalar : ∀ l, a ≠ .array l)
    (planned : planWithin s op n a b = .ok u) {h : Handle} (target : h ∈ u.targets) (d : Handle) :
    .dictionary d ∉ s.items h := by
  induction n generalizing b u with
  | zero => cases planned
  | succ n ih =>
    rw [planWithin_succ] at planned
    rcases planStep_ok planned with ⟨v, _, _, eq⟩ | ⟨own, pairs, items, split, done, _, eq⟩
    · subst eq
      simp [Update.targets] at target
    · subst eq
      obtain ⟨_, back, forth⟩ := mapM_ok done
      have unsplit (p : Value × Value) (listed : p ∈ pairs) : p.1 = a := by
        rcases split.left p listed with ⟨l, left, _⟩ | ⟨_, same⟩
        · exact absurd left (scalar l)
        · exact same
      rcases List.mem_cons.mp target with root | below
      · subst root
        intro nested
        obtain ⟨p, listed, ⟨left, _⟩ | ⟨_, pair⟩⟩ := split.covers _ nested
        · exact scalar h left
        · obtain ⟨u, _, each⟩ := forth p listed
          rw [pair] at each
          cases n with
          | zero => cases each
          | succ n =>
            rw [planWithin_succ] at each
            rcases planStep_ok each with ⟨v, _, done, _⟩ | ⟨own, _, _, inner, _⟩
            · rw [arithmetic_dictionary sum] at done
              cases done
            · rcases inPlace_operand inner.inPlace with left | right
              · exact scalar own left
              · cases right
      · obtain ⟨u, member, inner⟩ := Update.mem_allTargets.mp below
        obtain ⟨p, listed, each⟩ := back u member
        rw [unsplit p listed] at each
        exact ih each inner

theorem mapM_congr_of_mem {α β : Type} {f g : α → Except RunError β} {xs : List α}
    (same : ∀ x ∈ xs, f x = g x) : xs.mapM f = xs.mapM g := by
  induction xs with
  | nil => rfl
  | cons x rest ih =>
    rw [List.mapM_cons, List.mapM_cons, same x (by simp), ih (fun y member => same y (by simp [member]))]

theorem planStep_congr {s : Store} {op : BinaryOp} {a b : Value}
    {each other : Value → Value → Except RunError Update}
    (same : ∀ target pairs, Spread s a b target pairs → ∀ p ∈ pairs, each p.1 p.2 = other p.1 p.2) :
    planStep s op each a b = planStep s op other a b := by
  unfold planStep
  split
  · rfl
  · rfl
  · rename_i target pairs split
    rw [mapM_congr_of_mem (same target pairs (spread_pairs split))]

/-- How deep the arrays of a value go. Planning does not look into dictionaries. -/
noncomputable def arrayWeight (s : Store) (v : Value) : Nat :=
  match v with
  | .array _ => s.weight v
  | _ => 0

theorem arrayWeight_le (s : Store) (v : Value) : arrayWeight s v ≤ s.weight v := by
  cases v <;> simp [arrayWeight]

theorem arrayWeight_scalar {s : Store} {v : Value} (scalar : ∀ l, v ≠ .array l) :
    arrayWeight s v = 0 := by
  cases v <;> simp_all [arrayWeight]

theorem arrayWeight_child {s : Store} (acyclic : s.Acyclic) {l : Handle} {v : Value}
    (child : s.HasChild (.array l) v) : arrayWeight s v < arrayWeight s (.array l) := by
  have lighter := Store.weight_decreases acyclic child
  have bound := arrayWeight_le s v
  simp only [arrayWeight] at *
  omega

theorem spread_lighter {s : Store} (acyclic : s.Acyclic) {a b : Value} {target : Handle}
    {pairs : List (Value × Value)} (split : Spread s a b target pairs) {p : Value × Value}
    (listed : p ∈ pairs) :
    max (arrayWeight s p.1) (arrayWeight s p.2) < max (arrayWeight s a) (arrayWeight s b) := by
  have left := split.left p listed
  have right := split.right p listed
  rcases left with ⟨l, array, child⟩ | ⟨scalar, same⟩
  · subst array
    have first := arrayWeight_child acyclic child
    rcases right with ⟨r, array, child⟩ | ⟨scalar, same⟩
    · subst array
      have second := arrayWeight_child acyclic child
      omega
    · rw [same, arrayWeight_scalar scalar]
      omega
  · rcases right with ⟨r, array, child⟩ | ⟨other, _⟩
    · subst array
      have second := arrayWeight_child acyclic child
      rw [same, arrayWeight_scalar scalar]
      omega
    · rcases inPlace_operand split.inPlace with eq | eq
      · exact absurd eq (scalar target)
      · exact absurd eq (other target)

theorem planWithin_stable {s : Store} (acyclic : s.Acyclic) (op : BinaryOp) (n : Nat) (a b : Value)
    (enough : max (arrayWeight s a) (arrayWeight s b) < n) :
    planWithin s op (n + 1) a b = planWithin s op n a b := by
  induction n generalizing a b with
  | zero => omega
  | succ n ih =>
    rw [planWithin_succ, planWithin_succ]
    refine planStep_congr ?_
    intro target pairs split p listed
    exact ih p.1 p.2 (by have := spread_lighter acyclic split listed; omega)

/-- Planning needs no bound on its depth. -/
theorem plan_eq {s : Store} (acyclic : s.Acyclic) (op : BinaryOp) (a b : Value) :
    plan s op a b = planStep s op (plan s op) a b := by
  unfold plan Store.depthBound
  rw [planWithin_succ]
  refine planStep_congr ?_
  intro target pairs split p listed
  refine (planWithin_stable acyclic op s.size p.1 p.2 ?_).symm
  have lighter := spread_lighter acyclic split listed
  have left := Nat.le_trans (arrayWeight_le s a) (Store.weight_le_size s a)
  have right := Nat.le_trans (arrayWeight_le s b) (Store.weight_le_size s b)
  omega

theorem binary_ok {s t : Store} {op : BinaryOp} {a b v : Value}
    (done : binary s op a b = .ok (v, t)) :
    ∃ u, plan s op a b = .ok u ∧ u.Fits s ∧ v = u.result ∧ t = (u.commit s).2 := by
  unfold binary at done
  split at done
  · rename_i u planned
    have same : u.commit s = (v, t) := Except.ok.inj done
    refine ⟨u, planned, planWithin_fits _ planned, ?_, ?_⟩
    · rw [← Update.commit_result s u, same]
    · rw [same]
  · cases done

theorem binary_dictionaries {s t : Store} {op : BinaryOp} {a b v : Value}
    (done : binary s op a b = .ok (v, t)) : t.dictionaries = s.dictionaries := by
  obtain ⟨u, _, _, _, rfl⟩ := binary_ok done
  exact Update.commit_dictionaries u s

theorem combine_dictionaries {s t : Store} {op : AssignOp} {current rhs v : Value}
    (done : combine s op current rhs = .ok (v, t)) : t.dictionaries = s.dictionaries := by
  unfold combine at done
  split at done
  · exact binary_dictionaries done
  · cases done
    rfl

theorem binary_acyclic {s t : Store} {op : BinaryOp} {a b v : Value} (acyclic : s.Acyclic)
    (done : binary s op a b = .ok (v, t)) : t.Acyclic := by
  obtain ⟨u, _, fits, _, rfl⟩ := binary_ok done
  exact Update.commit_acyclic fits acyclic

theorem combine_acyclic {s t : Store} {op : AssignOp} {current rhs v : Value} (acyclic : s.Acyclic)
    (done : combine s op current rhs = .ok (v, t)) : t.Acyclic := by
  unfold combine at done
  split at done
  · exact binary_acyclic acyclic done
  · cases done
    exact acyclic

theorem binary_sound {s t : Store} {op : BinaryOp} {a b v : Value} (sound : s.Sound)
    (left : s.Knows a) (right : s.Knows b) (done : binary s op a b = .ok (v, t)) :
    t.Sound ∧ s.Grows t ∧ t.Knows v := by
  obtain ⟨u, planned, fits, rfl, rfl⟩ := binary_ok done
  have grows := Update.commit_grows fits
  have target_known : ∀ h ∈ u.targets, s.Knows (.array h) := by
    intro h target
    rcases planWithin_targets _ planned target with ⟨_, reach⟩ | reach
    · exact sound.knows_reached left reach
    · exact sound.knows_reached right reach
  have within_known : ∀ w, Update.Within u.targets w → (u.commit s).2.Knows w := by
    rintro w (scalar | ⟨k, target, rfl⟩)
    · cases w <;> first | trivial | exact absurd trivial scalar
    · exact grows.knows (target_known k target)
  refine ⟨⟨Update.commit_acyclic fits sound.acyclic, ?_⟩, grows,
    within_known _ (Update.result_scalar_or_target fits)⟩
  intro c w child
  cases c with
  | array h =>
    by_cases target : h ∈ u.targets
    · exact within_known w (Update.commit_targets_closed fits s h target w child)
    · have old : s.HasChild (.array h) w := by
        simpa [Store.HasChild, Store.children, Update.commit_leaves_others u target] using child
      exact grows.knows (sound.closed _ _ old)
  | dictionary h =>
    have old : s.HasChild (.dictionary h) w := by
      simpa [Store.HasChild, Store.children, Store.entries, Update.commit_dictionaries] using child
    exact grows.knows (sound.closed _ _ old)
  | _ => simp [Store.HasChild, Store.children] at child

theorem combine_sound {s t : Store} {op : AssignOp} {current rhs v : Value} (sound : s.Sound)
    (left : s.Knows current) (right : s.Knows rhs) (done : combine s op current rhs = .ok (v, t)) :
    t.Sound ∧ s.Grows t ∧ t.Knows v := by
  unfold combine at done
  split at done
  · exact binary_sound sound left right done
  · cases done
    exact ⟨sound, .refl s, right⟩

end FlowScript.Operator
