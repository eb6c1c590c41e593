import FlowScript.Member
import FlowScript.Proofs.Broadcast.Plan

/-!
Writes to members. A write reads the current value of its place, combines it with the right-hand
side, looks for a cycle and stores the result. Main statements: a write keeps the store acyclic, and
a write that fails leaves the store as it was, except where a scalar element of an array is combined
with an array that holds that array: there the combination has changed arrays before the cycle is
found.
-/
namespace FlowScript.Member

/-- A place that has a current value, and how a value is put there. -/
inductive Place (s : Store) : (object key current : Value) → (Value → Store → Store) → Prop where
  | element {h : Handle} {key current : Value} {i : Nat} (named : index? key = .ok (some i))
      (there : (s.items h)[i]? = some current) :
      Place s (.array h) key current fun next t => t.setItems h ((t.items h).set i next)
  | entry {h : Handle} {key : Value} {name : String} (named : keyText key = .ok name) :
      Place s (.dictionary h) key (((s.entries h).get? name).getD .null)
        fun next t => t.setEntries h ((t.entries h).insert name next)

theorem read_iff {s : Store} {object key v : Value} :
    read s object key = .ok v ↔ ∃ put, Place s object key v put := by
  constructor
  · intro found
    unfold read at found
    split at found
    · split at found
      · cases found
      · rename_i index named
        split at found
        · rename_i there
          cases found
          obtain ⟨i, rfl, element⟩ := Option.bind_eq_some_iff.mp there
          exact ⟨_, .element named element⟩
        · cases found
    · split at found
      · cases found
      · rename_i name named
        cases found
        exact ⟨_, .entry named⟩
    · cases found
  · rintro ⟨put, place⟩
    cases place with
    | element named there => simp [read, named, there]
    | entry named => simp [read, named]

theorem store_eq (object next : Value) (t : Store) (put : Store → Store) :
    store object next t put =
      if t.holds next object then (.error (.cyclicReference object.valueType), t)
      else (.ok (.stored next), put t) := by
  unfold store rejectCycle
  by_cases cycle : t.holds next object = true <;> simp [cycle]

/-- What a write can do: fail before any change, find no place, or combine, and then store the
    result unless it holds the container. -/
theorem assign_cases (s : Store) (object key : Value) (op : AssignOp) (rhs : Value) :
    (∃ e, assign s object key op rhs = (.error e, s)) ∨
    (∃ h next t, object = .array h ∧ (index? key = .ok none ∨
        ∃ i, index? key = .ok (some i) ∧ (s.items h)[i]? = none) ∧
      Operator.combine s op .null rhs = .ok (next, t) ∧
      assign s object key op rhs = (.ok (.outside (t.items h).length), t)) ∨
    ∃ current put next t, Place s object key current put ∧
      Operator.combine s op current rhs = .ok (next, t) ∧
      assign s object key op rhs =
        if t.holds next object then (.error (.cyclicReference object.valueType), t)
        else (.ok (.stored next), put next t) := by
  cases object with
  | array h =>
    cases named : index? key with
    | error e => exact Or.inl ⟨e, by simp [assign, named]⟩
    | ok index =>
      cases index with
      | none =>
        cases done : Operator.combine s op .null rhs with
        | error e => exact Or.inl ⟨e, by simp [assign, named, done]⟩
        | ok combined =>
          obtain ⟨next, t⟩ := combined
          exact Or.inr (Or.inl ⟨h, next, t, rfl, Or.inl rfl, rfl, by simp [assign, named, done]⟩)
      | some i =>
        cases there : (s.items h)[i]? with
        | none =>
          cases done : Operator.combine s op .null rhs with
          | error e => exact Or.inl ⟨e, by simp [assign, named, there, done]⟩
          | ok combined =>
            obtain ⟨next, t⟩ := combined
            exact Or.inr (Or.inl ⟨h, next, t, rfl, Or.inr ⟨i, rfl, there⟩, rfl,
              by simp [assign, named, there, done]⟩)
        | some current =>
          cases done : Operator.combine s op current rhs with
          | error e => exact Or.inl ⟨e, by simp [assign, named, there, done]⟩
          | ok combined =>
            obtain ⟨next, t⟩ := combined
            exact Or.inr (Or.inr ⟨current, _, next, t, .element named there, done,
              by simp [assign, named, there, done, store_eq]⟩)
  | dictionary h =>
    cases named : keyText key with
    | error e => exact Or.inl ⟨e, by simp [assign, named]⟩
    | ok name =>
      cases done : Operator.combine s op (((s.entries h).get? name).getD .null) rhs with
      | error e => exact Or.inl ⟨e, by simp [assign, named, done]⟩
      | ok combined =>
        obtain ⟨next, t⟩ := combined
        exact Or.inr (Or.inr ⟨_, _, next, t, .entry named, done,
          by simp [assign, named, done, store_eq]⟩)
  | _ => exact Or.inl ⟨_, rfl⟩

theorem place_container {s : Store} {object key current : Value} {put : Value → Store → Store}
    (place : Place s object key current put) : object.IsContainer := by
  cases place <;> trivial

theorem put_keeps_others {s : Store} {object key current : Value} {put : Value → Store → Store}
    (place : Place s object key current put) (next : Value) (t : Store) :
    ∀ v, v ≠ object → (put next t).children v = t.children v := by
  intro v other
  cases place with
  | element => exact Store.children_setItems_of_ne other _
  | entry => exact Store.children_setEntries_of_ne other _

theorem put_children {s : Store} {object key current : Value} {put : Value → Store → Store}
    (place : Place s object key current put) {next w : Value} {t : Store}
    (child : (put next t).HasChild object w) : w = next ∨ t.HasChild object w := by
  cases place with
  | element =>
    rcases List.mem_or_eq_of_mem_set (Store.mem_of_child_setItems child) with old | new
    · exact Or.inr old
    · exact Or.inl new
  | entry => exact Entries.mem_values_insert (Store.mem_of_child_setEntries child)

theorem put_acyclic {s : Store} {object key current : Value} {put : Value → Store → Store}
    (place : Place s object key current put) {next : Value} {t : Store} (acyclic : t.Acyclic)
    (free : t.holds next object ≠ true) : (put next t).Acyclic := by
  refine Store.acyclic_of_changed_at acyclic (put_keeps_others place next t) ?_
  intro w child reach
  rcases put_children place child with new | old
  · subst new
    exact free ((Store.holds_iff acyclic (place_container place) w).mpr reach)
  · exact Store.acyclic_no_return acyclic old reach

theorem rejectCycle_ok_iff {s : Store} {container v : Value} :
    rejectCycle s container v = .ok () ↔ s.holds v container ≠ true := by
  by_cases held : s.holds v container = true <;> simp [rejectCycle, held]

theorem insert_acyclic {s : Store} {h : Handle} (name : String) (acyclic : s.Acyclic) {v : Value}
    (free : rejectCycle s (.dictionary h) v = .ok ()) :
    (s.setEntries h ((s.entries h).insert name v)).Acyclic := by
  have place : Place s (.dictionary h) (.text name) _ _ := .entry rfl
  exact put_acyclic place acyclic (rejectCycle_ok_iff.mp free)

theorem assign_acyclic {s : Store} (acyclic : s.Acyclic) (object key : Value) (op : AssignOp)
    (rhs : Value) : (assign s object key op rhs).2.Acyclic := by
  rcases assign_cases s object key op rhs with ⟨e, run⟩ | ⟨h, next, t, _, _, done, run⟩ |
    ⟨current, put, next, t, place, done, run⟩
  · rw [run]
    exact acyclic
  · rw [run]
    exact Operator.combine_acyclic acyclic done
  · -- the combination has written already, so the search for a cycle runs on what it left
    have middle := Operator.combine_acyclic acyclic done
    rw [run]
    split
    · exact middle
    · rename_i free
      exact put_acyclic place middle free

theorem place_known {s : Store} {object key current : Value} {put : Value → Store → Store}
    (place : Place s object key current put) (sound : s.Sound) : s.Knows current := by
  cases place with
  | @element h _ _ _ _ there => exact sound.closed (.array h) _ (List.mem_of_getElem? there)
  | @entry h _ name _ =>
    cases found : (s.entries h).get? name with
    | none => trivial
    | some v => exact sound.closed (.dictionary h) v (Entries.mem_values_of_get? found)

theorem read_known {s : Store} (sound : s.Sound) {object key v : Value}
    (found : read s object key = .ok v) : s.Knows v := by
  obtain ⟨put, place⟩ := read_iff.mp found
  exact place_known place sound

theorem put_grows {s : Store} {object key current : Value} {put : Value → Store → Store}
    (place : Place s object key current put) (next : Value) (t : Store) : t.Grows (put next t) := by
  cases place with
  | element => exact Store.grows_setItems (by simp)
  | entry => exact Store.grows_setEntries t _ _

theorem put_sound {s : Store} {object key current : Value} {put : Value → Store → Store}
    (place : Place s object key current put) {next : Value} {t : Store} (sound : t.Sound)
    (known : t.Knows next) (free : t.holds next object ≠ true) : (put next t).Sound where
  acyclic := put_acyclic place sound.acyclic free
  closed v w child := by
    refine (put_grows place next t).knows ?_
    by_cases changed : v = object
    · subst changed
      rcases put_children place child with new | old
      · exact new ▸ known
      · exact sound.closed v w old
    · exact sound.closed v w
        (by simpa [Store.HasChild, put_keeps_others place next t v changed] using child)

theorem insert_sound {s : Store} {h : Handle} (name : String) (sound : s.Sound) {v : Value}
    (known : s.Knows v) (free : rejectCycle s (.dictionary h) v = .ok ()) :
    (s.setEntries h ((s.entries h).insert name v)).Sound := by
  have place : Place s (.dictionary h) (.text name) _ _ := .entry rfl
  exact put_sound place sound known (rejectCycle_ok_iff.mp free)

theorem assign_sound {s : Store} (sound : s.Sound) {rhs : Value} (known : s.Knows rhs)
    (object key : Value) (op : AssignOp) :
    (assign s object key op rhs).2.Sound ∧ s.Grows (assign s object key op rhs).2 ∧
      ∀ v, (assign s object key op rhs).1 = .ok (.stored v) →
        (assign s object key op rhs).2.Knows v := by
  rcases assign_cases s object key op rhs with ⟨e, run⟩ | ⟨h, next, t, _, _, done, run⟩ |
    ⟨current, put, next, t, place, done, run⟩
  · rw [run]
    exact ⟨sound, .refl s, by simp⟩
  · obtain ⟨after, grows, _⟩ := Operator.combine_sound sound (show s.Knows .null from trivial) known done
    rw [run]
    exact ⟨after, grows, by simp⟩
  · obtain ⟨after, grows, next_known⟩ :=
      Operator.combine_sound sound (place_known place sound) known done
    rw [run]
    split
    · exact ⟨after, grows, by simp⟩
    · rename_i free
      have grown := put_grows place next t
      refine ⟨put_sound place after next_known free, grows.trans grown, ?_⟩
      rintro v ⟨⟩
      exact grown.knows next_known

/-- An element of an array, no array itself, is combined with an array that is or holds the first
    array. The combination gives `next` and leaves the store `t`. -/
def Entangled (s : Store) (object key : Value) (op : AssignOp) (rhs next : Value) (t : Store) : Prop :=
  ∃ h i current bop r, object = .array h ∧ index? key = .ok (some i) ∧
    (s.items h)[i]? = some current ∧ (∀ l, current ≠ .array l) ∧ op.binaryOp? = some bop ∧
    rhs = .array r ∧ s.Reaches rhs object ∧ Operator.binary s bop current rhs = .ok (next, t)

theorem combine_compound {s t : Store} {op : AssignOp} {bop : BinaryOp} {current rhs next : Value}
    (compound : op.binaryOp? = some bop) :
    Operator.combine s op current rhs = .ok (next, t) ↔
      Operator.binary s bop current rhs = .ok (next, t) := by
  simp [Operator.combine, compound]

theorem compound_arithmetic {op : AssignOp} {bop : BinaryOp} (compound : op.binaryOp? = some bop) :
    bop.opClass = .arithmetic := by
  cases op <;> cases compound <;> rfl

theorem combined_array_stays_below {s : Store} (acyclic : s.Acyclic) {object key current : Value}
    {put : Value → Store → Store} (place : Place s object key current put) {c : Handle}
    (array : current = .array c) {u : Operator.Update} (fits : u.Fits s)
    (root : u.result = .array c) {k : Handle} (target : k ∈ u.targets) : object ≠ .array k := by
  rintro rfl
  cases place with
  | element named there =>
    subst array
    exact Operator.Update.result_not_in_target acyclic fits root target
      (List.mem_of_getElem? there)

theorem cycle_entangled {s t : Store} (acyclic : s.Acyclic) {object key current : Value}
    {put : Value → Store → Store} (place : Place s object key current put) {op : AssignOp}
    {bop : BinaryOp} (compound : op.binaryOp? = some bop) {rhs next : Value}
    (done : Operator.binary s bop current rhs = .ok (next, t)) (cycle : t.holds next object = true) :
    Entangled s object key op rhs next t := by
  have after := Operator.binary_acyclic acyclic done
  obtain ⟨u, planned, fits, result, rfl⟩ := Operator.binary_ok done
  have reach := (Store.holds_iff after (place_container place) next).mp cycle
  rw [result] at reach
  have inside := Operator.Update.reaches_within (Operator.Update.commit_targets_closed fits s)
    (Operator.Update.result_scalar_or_target fits) reach
  rcases inside with scalar | ⟨k, target, eq⟩
  · exact absurd (place_container place) scalar
  · have scalar : ∀ l, current ≠ .array l := by
      intro l array
      have root := Operator.planWithin_result planned (c := l) (by rw [array]; rfl)
      exact combined_array_stays_below acyclic place array fits root target eq
    subst eq
    cases place with
    | element named there =>
      rcases Operator.planWithin_targets _ planned target with ⟨⟨l, array⟩, _⟩ | reaches
      · exact absurd array (scalar l)
      · obtain ⟨r, array⟩ : ∃ r, rhs = .array r := by
          refine Operator.right_array_of_target planned target scalar
        exact ⟨k, _, current, bop, r, rfl, named, there, scalar, compound, array, reaches, done⟩

/-- A write that fails leaves the store as it was, unless it is entangled. An entangled write always
    fails, with the store as the combination left it. -/
theorem failed_assign_keeps_store_unless_entangled {s : Store} (acyclic : s.Acyclic)
    (object key : Value) (op : AssignOp) (rhs : Value) :
    (∀ e t, assign s object key op rhs = (.error e, t) →
      (∀ next, ¬ Entangled s object key op rhs next t) → t = s) ∧
    ∀ next t, Entangled s object key op rhs next t →
      assign s object key op rhs = (.error (.cyclicReference .array), t) := by
  constructor
  · intro e t failed free
    rcases assign_cases s object key op rhs with ⟨_, run⟩ | ⟨_, _, _, _, _, _, run⟩ |
      ⟨current, put, next, t', place, done, run⟩
    · rw [failed] at run
      exact congrArg Prod.snd run
    · rw [failed] at run
      cases run
    · rw [failed] at run
      split at run
      · rename_i cycle
        cases run
        cases compound : op.binaryOp? with
        | none =>
          simp only [Operator.combine, compound, Except.ok.injEq, Prod.mk.injEq] at done
          exact done.2.symm
        | some bop =>
          rw [combine_compound compound] at done
          exact absurd (cycle_entangled acyclic place compound done cycle) (free next)
      · cases run
  · rintro next t ⟨h, i, current, bop, r, rfl, named, there, scalar, compound, rfl, reaches, done⟩
    have after := Operator.binary_acyclic acyclic done
    have combined := (combine_compound compound).mpr done
    obtain ⟨u, planned, fits, result, rfl⟩ := Operator.binary_ok done
    have root : u.result = .array r := by
      refine Operator.planWithin_result planned ?_
      cases current <;> simp_all [Operator.inPlace]
    have cycle : (u.commit s).2.holds next (.array h) = true := by
      rw [result, root, Store.holds_iff after (c := .array h) trivial]
      refine Operator.Update.reaches_after_commit fits ?_ reaches
        ⟨r, Operator.Update.target_of_result root fits, rfl⟩
      intro k target d
      exact Operator.planWithin_no_dictionary (compound_arithmetic compound) _ scalar planned target d
    simp [assign, named, there, combined, store_eq, cycle, Value.valueType]

def single (x : Float) : Store := (Store.empty.newArray [.number x]).2

theorem single_sound (x : Float) : (single x).Sound :=
  Store.sound_newArray Store.empty_sound (by simp [Store.Knows])

theorem single_entangled :
    Entangled (single 1.0) (.array 0) .null .addAssign (.array 0) (.array 0) (single 2.0) :=
  ⟨0, 0, .number 1.0, .add, 0, rfl, rfl, rfl, by simp, rfl, rfl, .refl, rfl⟩

/-- Adding an array to its own element fails and still changes the array. -/
theorem failed_assign_changes_array :
    (single 1.0).Acyclic ∧
      assign (single 1.0) (.array 0) .null .addAssign (.array 0) =
        (.error (.cyclicReference .array), single 2.0) ∧
      (single 2.0).items 0 ≠ (single 1.0).items 0 := by
  refine ⟨(single_sound 1.0).acyclic, rfl, ?_⟩
  intro same
  have lists : [Value.number 2.0] = [Value.number 1.0] := same
  have equal : (2.0 : Float) = 1.0 := by simpa using lists
  exact absurd equal (by decide)

theorem failed_assign_keeps_store_unless_entangled_single :
    (single 1.0).Acyclic ∧
      assign (single 1.0) (.array 0) .null .addAssign (.array 0) =
        (.error (.cyclicReference .array), single 2.0) ∧
      ∀ e t, assign (single 1.0) (.array 0) (.array 0) .addAssign (.array 0) = (.error e, t) →
        t = single 1.0 := by
  have acyclic := (single_sound 1.0).acyclic
  refine ⟨acyclic, ?_, ?_⟩
  · exact (failed_assign_keeps_store_unless_entangled acyclic (.array 0) .null .addAssign
      (.array 0)).2 _ _ single_entangled
  · intro e t failed
    refine (failed_assign_keeps_store_unless_entangled acyclic (.array 0) (.array 0) .addAssign
      (.array 0)).1 e t failed ?_
    rintro next ⟨h, i, current, bop, r, _, named, _⟩
    cases named

end FlowScript.Member
