import FlowScript.Operator.Broadcast
import FlowScript.Proofs.Store.Change

/-!
Carrying out an update. An update that fits the store writes only its targets, keeps the length of
every array, and leaves each target with values and other targets of the update only. Main
statement: every such update keeps an acyclic store acyclic, also where one array is written several
times with different contents.
-/
namespace FlowScript.Operator

namespace Update

@[elab_as_elim, induction_eliminator]
theorem induct {P : Update → Prop} (value : ∀ v, P (.value v))
    (array : ∀ target items, (∀ u ∈ items, P u) → P (.array target items)) (u : Update) : P u :=
  @Update.rec P (fun items => ∀ u ∈ items, P u) value array
    (fun _ member => absurd member List.not_mem_nil)
    (fun _ _ first rest u member =>
      (List.mem_cons.mp member).elim (fun same => same ▸ first) (rest u)) u

def result : Update → Value
  | .value v => v
  | .array target _ => .array target

mutual

def targets : Update → List Handle
  | .value _ => []
  | .array target items => target :: allTargets items

def allTargets : List Update → List Handle
  | [] => []
  | u :: rest => u.targets ++ allTargets rest

end

theorem mem_allTargets {items : List Update} {h : Handle} :
    h ∈ allTargets items ↔ ∃ u ∈ items, h ∈ u.targets := by
  induction items with
  | nil => simp [allTargets]
  | cons u rest ih => simp [allTargets, ih]

theorem targets_nodup_of_mem {items : List Update} (nodup : (allTargets items).Nodup) {u : Update}
    (member : u ∈ items) : u.targets.Nodup := by
  induction items with
  | nil => simp at member
  | cons v rest ih =>
    rw [allTargets, List.nodup_append] at nodup
    rcases List.mem_cons.mp member with same | later
    · rw [same]
      exact nodup.1
    · exact ih nodup.2.1 later

/-- The update puts no container but its own targets anywhere, writes no array inside itself, keeps
    the length of every array, and writes the arrays inside an array that it writes. -/
inductive Fits (s : Store) : Update → Prop where
  | value {v : Value} (scalar : ¬ v.IsContainer) : Fits s (.value v)
  | array {target : Handle} {items : List Update} (inner : ∀ u ∈ items, Fits s u)
      (apart : ∀ u ∈ items, target ∉ u.targets) (size : items.length = (s.items target).length)
      (covers : ∀ c, .array c ∈ s.items target → ∃ u ∈ items, u.result = .array c) :
      Fits s (.array target items)

theorem result_scalar_or_target {s : Store} {u : Update} (fits : u.Fits s) :
    ¬ u.result.IsContainer ∨ ∃ k ∈ u.targets, u.result = .array k := by
  cases fits with
  | value scalar => exact Or.inl scalar
  | array => exact Or.inr ⟨_, by simp [targets], rfl⟩

theorem target_of_result {u : Update} {h : Handle} (same : u.result = .array h)
    {s : Store} (fits : u.Fits s) : h ∈ u.targets := by
  rcases result_scalar_or_target fits with scalar | ⟨k, member, eq⟩
  · rw [same] at scalar
    exact absurd trivial scalar
  · rw [same] at eq
    rwa [Value.array.inj eq]

theorem commit_result (s : Store) (u : Update) : (u.commit s).1 = u.result := by
  cases u <;> rfl

theorem commitAll_results (s : Store) (items : List Update) :
    (commitAll s items).1 = items.map result := by
  induction items generalizing s with
  | nil => rfl
  | cons u rest ih => simp [commitAll, commit_result, ih]

theorem commit_array (s : Store) (target : Handle) (items : List Update) :
    ((Update.array target items).commit s).2 =
      (commitAll s items).2.setItems target (items.map result) := by
  rw [commit, ← commitAll_results s items]

theorem commitAll_keeps {P : Store → Prop} {items : List Update}
    (each : ∀ u ∈ items, ∀ s, P s → P (u.commit s).2) (s : Store) (start : P s) :
    P (commitAll s items).2 := by
  induction items generalizing s with
  | nil => exact start
  | cons u rest ih =>
    exact ih (fun v member => each v (by simp [member])) _ (each u (by simp) s start)

theorem commit_leaves_others {h : Handle} (u : Update) (outside : h ∉ u.targets) (s : Store) :
    (u.commit s).2.items h = s.items h := by
  induction u generalizing s with
  | value v => rfl
  | array target items ih =>
    simp only [targets, List.mem_cons, not_or, mem_allTargets, not_exists, not_and] at outside
    rw [commit_array, Store.items_setItems_of_ne outside.1]
    refine commitAll_keeps (P := fun t => t.items h = s.items h) ?_ s rfl
    intro u member t same
    rw [ih u member (outside.2 u member), same]

theorem commitAll_leaves_others {h : Handle} (items : List Update) (outside : h ∉ allTargets items)
    (s : Store) : (commitAll s items).2.items h = s.items h := by
  refine commitAll_keeps (P := fun t => t.items h = s.items h) ?_ s rfl
  intro u member t same
  rw [commit_leaves_others u (fun target => outside (mem_allTargets.mpr ⟨u, member, target⟩)), same]

theorem commit_dictionaries (u : Update) (s : Store) :
    (u.commit s).2.dictionaries = s.dictionaries := by
  induction u generalizing s with
  | value v => rfl
  | array target items ih =>
    rw [commit_array]
    refine commitAll_keeps (P := fun t => t.dictionaries = s.dictionaries) ?_ s rfl
    intro u member t same
    rw [ih u member t, same]

theorem commit_arrays_size (u : Update) (s : Store) :
    (u.commit s).2.arrays.size = s.arrays.size := by
  induction u generalizing s with
  | value v => rfl
  | array target items ih =>
    rw [commit_array, Store.setItems, Array.size_setIfInBounds]
    refine commitAll_keeps (P := fun t => t.arrays.size = s.arrays.size) ?_ s rfl
    intro u member t same
    rw [ih u member t, same]

theorem commit_lengths {s t : Store} {u : Update} (fits : u.Fits s)
    (before : ∀ h, (t.items h).length = (s.items h).length) :
    ∀ h, ((u.commit t).2.items h).length = (s.items h).length := by
  induction fits generalizing t with
  | value => exact before
  | @array target items inner apart size covers ih =>
    have middle : ∀ h, ((commitAll t items).2.items h).length = (s.items h).length :=
      commitAll_keeps (P := fun t => ∀ h, (t.items h).length = (s.items h).length)
        (fun u member t same => ih u member same) t before
    intro h
    rw [commit_array]
    by_cases written : h = target
    · subst written
      rw [Store.items_setItems_self (by rw [List.length_map, size, middle]), List.length_map, size]
    · rw [Store.items_setItems_of_ne written, middle]

theorem commitAll_lengths {s t : Store} {items : List Update} (fits : ∀ u ∈ items, u.Fits s)
    (before : ∀ h, (t.items h).length = (s.items h).length) :
    ∀ h, ((commitAll t items).2.items h).length = (s.items h).length :=
  commitAll_keeps (P := fun t => ∀ h, (t.items h).length = (s.items h).length)
    (fun u member _ same => commit_lengths (fits u member) same) t before

theorem commit_grows {s : Store} {u : Update} (fits : u.Fits s) : s.Grows (u.commit s).2 where
  arrays := Nat.le_of_eq (commit_arrays_size u s).symm
  dictionaries := Nat.le_of_eq (congrArg Array.size (commit_dictionaries u s)).symm
  lengths h _ := commit_lengths fits (fun _ => rfl) h

def Within (listed : List Handle) (v : Value) : Prop :=
  ¬ v.IsContainer ∨ ∃ k ∈ listed, v = .array k

theorem Within.mono {smaller larger : List Handle} (subset : smaller ⊆ larger) {v : Value}
    (within : Within smaller v) : Within larger v := by
  rcases within with scalar | ⟨k, member, eq⟩
  · exact Or.inl scalar
  · exact Or.inr ⟨k, subset member, eq⟩

/-- Of several writes to one array the last one counts, and it too put only targets there. -/
theorem commitAll_targets_closed {items : List Update}
    (each : ∀ u ∈ items, ∀ t, ∀ h ∈ u.targets, ∀ w ∈ (u.commit t).2.items h, Within u.targets w)
    (t : Store) (h : Handle) (target : h ∈ allTargets items) (w : Value)
    (member : w ∈ (commitAll t items).2.items h) : Within (allTargets items) w := by
  induction items generalizing t with
  | nil => simp [allTargets] at target
  | cons u rest ih =>
    simp only [commitAll] at member
    by_cases later : h ∈ allTargets rest
    · refine (ih (fun v listed => each v (by simp [listed])) _ later member).mono ?_
      simp [allTargets]
    · rw [commitAll_leaves_others rest later] at member
      have first : h ∈ u.targets := by simpa [allTargets, later] using target
      refine (each u (by simp) t h first w member).mono ?_
      simp [allTargets]

theorem commit_targets_closed {s : Store} {u : Update} (fits : u.Fits s) (t : Store) (h : Handle)
    (target : h ∈ u.targets) (w : Value) (member : w ∈ (u.commit t).2.items h) :
    Within u.targets w := by
  induction fits generalizing t h w with
  | value => simp [targets] at target
  | @array own items inner apart size covers ih =>
    rw [commit_array] at member
    by_cases root : h = own
    · subst root
      obtain ⟨u, listed, eq⟩ := List.mem_map.mp (Store.mem_of_child_setItems member)
      subst eq
      refine Within.mono ?_ (result_scalar_or_target (inner u listed))
      intro k inside
      exact List.mem_cons_of_mem _ (mem_allTargets.mpr ⟨u, listed, inside⟩)
    · rw [Store.items_setItems_of_ne root] at member
      have below : h ∈ allTargets items := by simpa [targets, root] using target
      refine Within.mono (by simp [targets])
        (commitAll_targets_closed (fun u listed t h target w => ih u listed t h target w) t h below w
          member)

theorem reaches_within {t : Store} {listed : List Handle}
    (closed : ∀ h ∈ listed, ∀ w ∈ t.items h, Within listed w) {v w : Value}
    (start : Within listed v) (reach : t.Reaches v w) : Within listed w := by
  refine Store.reaches_stays_inside ?_ reach start
  intro v w inside child
  rcases inside with scalar | ⟨k, member, eq⟩
  · cases v <;> simp_all [Store.HasChild, Store.children, Value.IsContainer]
  · subst eq
    exact closed k member w child

theorem commit_acyclic {s t : Store} {u : Update} (fits : u.Fits s) (acyclic : t.Acyclic) :
    (u.commit t).2.Acyclic := by
  induction fits generalizing t with
  | value => exact acyclic
  | @array own items inner apart size covers ih =>
    have middle : (commitAll t items).2.Acyclic :=
      commitAll_keeps (P := Store.Acyclic) (fun u member t before => ih u member before) t acyclic
    have closed := commitAll_targets_closed
      (fun u listed t h target w => commit_targets_closed (inner u listed) t h target w) t
    rw [commit_array]
    refine Store.acyclic_of_changed_at (c := .array own) middle
      (fun v other => Store.children_setItems_of_ne other _) ?_
    -- from the new elements only targets are reached, and the plan kept `own` out of those
    intro w child reach
    obtain ⟨u, listed, eq⟩ := List.mem_map.mp (Store.mem_of_child_setItems child)
    subst eq
    have start : Within (allTargets items) u.result :=
      Within.mono (fun k inside => mem_allTargets.mpr ⟨u, listed, inside⟩)
        (result_scalar_or_target (inner u listed))
    rcases reaches_within closed start reach with scalar | ⟨k, member, eq⟩
    · exact scalar trivial
    · obtain ⟨v, planned, target⟩ := mem_allTargets.mp member
      exact apart v planned (Value.array.inj eq ▸ target)

def Keeps (s t : Store) : Prop :=
  (∀ h, (t.items h).length = (s.items h).length) ∧
    ∀ h c, .array c ∈ s.items h → .array c ∈ t.items h

theorem commit_keeps {s t : Store} {u : Update} (fits : u.Fits s) (before : Keeps s t) :
    Keeps s (u.commit t).2 := by
  induction fits generalizing t with
  | value => exact before
  | @array own items inner apart size covers ih =>
    have middle : Keeps s (commitAll t items).2 :=
      commitAll_keeps (P := Keeps s) (fun u listed t before => ih u listed before) t before
    refine ⟨commit_lengths (.array inner apart size covers) before.1, ?_⟩
    intro h c member
    rw [commit_array]
    by_cases written : h = own
    · subst written
      rw [Store.items_setItems_self (by rw [List.length_map, size, middle.1])]
      obtain ⟨u, listed, eq⟩ := covers c member
      exact List.mem_map.mpr ⟨u, listed, eq⟩
    · rw [Store.items_setItems_of_ne written]
      exact middle.2 h c member

theorem targets_cover {s : Store} {u : Update} (fits : u.Fits s) {h c : Handle}
    (target : h ∈ u.targets) (nested : .array c ∈ s.items h) : c ∈ u.targets := by
  induction fits with
  | value => simp [targets] at target
  | @array own items inner apart size covers ih =>
    simp only [targets, List.mem_cons, mem_allTargets] at target ⊢
    rcases target with root | ⟨u, listed, below⟩
    · subst root
      obtain ⟨u, listed, eq⟩ := covers c nested
      exact Or.inr ⟨u, listed, target_of_result eq (inner u listed)⟩
    · exact Or.inr ⟨u, listed, ih u listed below⟩

theorem result_not_in_target {s : Store} (acyclic : s.Acyclic) {u : Update} (fits : u.Fits s)
    {h c : Handle} (root : u.result = .array c) (target : h ∈ u.targets) :
    .array c ∉ s.items h := by
  intro nested
  cases fits with
  | value => simp [targets] at target
  | @array own items inner apart size covers =>
    have same : own = c := Value.array.inj root
    subst same
    simp only [targets, List.mem_cons, mem_allTargets] at target
    rcases target with top | ⟨u, listed, below⟩
    · subst top
      exact Store.acyclic_no_return acyclic (v := .array h) (w := .array h) nested .refl
    · exact apart u listed (targets_cover (inner u listed) below nested)

theorem reaches_after_commit {s : Store} {u : Update} (fits : u.Fits s)
    (arraysOnly : ∀ h ∈ u.targets, ∀ d, .dictionary d ∉ s.items h) {v : Value} {k : Handle}
    (reach : s.Reaches v (.array k)) (start : ∃ h ∈ u.targets, v = .array h) :
    (u.commit s).2.Reaches v (.array k) := by
  have kept := commit_keeps fits (t := s) ⟨fun _ => rfl, fun _ _ member => member⟩
  induction reach using Relation.ReflTransGen.head_induction_on with
  | refl => exact .refl
  | @head v w first rest ih =>
    obtain ⟨h, target, eq⟩ := start
    subst eq
    cases w with
    | array c => exact (ih ⟨c, targets_cover fits target first, rfl⟩).head (kept.2 h c first)
    | dictionary d => exact absurd first (arraysOnly h target d)
    | _ => exact absurd (Store.reaches_of_no_children rfl rest) (by simp)

end Update
end FlowScript.Operator
