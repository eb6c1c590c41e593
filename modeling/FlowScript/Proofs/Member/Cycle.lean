import FlowScript.Proofs.Member.Assign

/-!
The search for a container, on which every guard against cycles rests. It asks a value and then the
values inside, and tells containers apart by their handles. Main statement: on an acyclic store the
search comes to an end and finds exactly what is reached, so a value is refused exactly if the
container, with the value stored in it, would reach itself.
-/
namespace FlowScript

namespace Store

variable {s t : Store} {c v : Value}

/-- The search for `c` ends with this answer. The values inside are asked in their order, until one
    of them says yes. A search that runs in circles has no answer. -/
inductive Search (s : Store) (c : Value) : Value → Bool → Prop where
  | here {v : Value} (same : v.sameContainer c = true) : Search s c v true
  | inside {v w : Value} {before after : List Value} (other : v.sameContainer c = false)
      (split : s.children v = before ++ w :: after) (passed : ∀ u ∈ before, Search s c u false)
      (found : Search s c w true) : Search s c v true
  | nowhere {v : Value} (other : v.sameContainer c = false)
      (passed : ∀ u ∈ s.children v, Search s c u false) : Search s c v false

theorem answer_iff_reaches (container : c.IsContainer) {b : Bool} (search : s.Search c v b) :
    b = true ↔ s.Reaches v c := by
  induction search with
  | here same =>
    obtain rfl := (Value.sameContainer_iff container).mp same
    exact ⟨fun _ => .refl, fun _ => rfl⟩
  | @inside v w before after _ split _ _ _ found =>
    have child : s.HasChild v w := by simp [HasChild, split]
    exact ⟨fun _ => (found.mp rfl).head child, fun _ => rfl⟩
  | @nowhere v other _ passed =>
    constructor
    · intro yes
      cases yes
    · intro reach
      rcases Relation.ReflTransGen.cases_head reach with same | ⟨w, child, rest⟩
      · rw [(Value.sameContainer_iff container).mpr same] at other
        exact other.symm
      · exact (passed w child).mpr rest

theorem no_cycle_of_answer_no {b : Bool} (search : s.Search c v b) (no : b = false) :
    ¬ Relation.TransGen s.HasChild v v := by
  induction search with
  | here => cases no
  | inside => cases no
  | nowhere _ _ passed =>
    intro cycle
    obtain ⟨w, child, rest⟩ := Relation.TransGen.head'_iff.mp cycle
    exact passed w child rfl (.tail' rest child)

/-- Acyclicity cannot be left out: a value that reaches itself, but not the container, is asked
    without end. -/
theorem no_answer_around_cycle (container : c.IsContainer)
    (cycle : Relation.TransGen s.HasChild v v) (apart : ¬ s.Reaches v c) (b : Bool) :
    ¬ s.Search c v b := by
  intro search
  cases b with
  | true => exact apart ((answer_iff_reaches container search).mp rfl)
  | false => exact no_cycle_of_answer_no search rfl cycle

theorem search_holds (acyclic : s.Acyclic) (c v : Value) : s.Search c v (s.holds v c) := by
  induction v using (acyclic_wellFounded acyclic).induction with
  | h v ih =>
    rw [holds_eq acyclic]
    cases same : v.sameContainer c with
    | true => exact .here same
    | false =>
      rw [Bool.false_or]
      cases asked : (s.children v).any fun w => s.holds w c with
      | true =>
        -- the search stops at the first of the values inside that says yes
        obtain ⟨w, first⟩ : ∃ w, (s.children v).find? (fun w => s.holds w c) = some w := by
          rwa [← Option.isSome_iff_exists, List.find?_isSome, ← List.any_eq_true]
        obtain ⟨found, before, after, split, passed⟩ := List.find?_eq_some_iff_append.mp first
        refine .inside same split (fun u member => ?_) ?_
        · have no : s.holds u c = false := by simpa using passed u member
          exact no ▸ ih u (by simp [HasChild, split, member])
        · exact found ▸ ih w (by simp [HasChild, split])
      | false =>
        refine .nowhere same fun u member => ?_
        have no : s.holds u c = false := by simpa using List.any_eq_false.mp asked u member
        exact no ▸ ih u member

theorem search_iff (acyclic : s.Acyclic) (container : c.IsContainer) {b : Bool} :
    s.Search c v b ↔ b = s.holds v c := by
  constructor
  · intro search
    refine Bool.eq_iff_iff.mpr ?_
    exact (answer_iff_reaches container search).trans (holds_iff acyclic container v).symm
  · rintro rfl
    exact search_holds acyclic c v

/-- One value, or two whose contents are equal to some depth. The first case is of its own because
    a container is equal to itself even where it holds a number that is not. -/
def LooksLike (s : Store) (a b : Value) : Prop := a = b ∨ ∃ n, s.equalWithin n a b = true

theorem array_looksLike {h k : Handle} {w : Value} {n : Nat}
    (equal : s.equalWithin n (.array h) (.array k) = true) (child : w ∈ s.items h) :
    ∃ u ∈ s.items k, s.LooksLike w u := by
  cases n with
  | zero =>
    obtain rfl : h = k := by simpa [equalWithin] using equal
    exact ⟨w, child, Or.inl rfl⟩
  | succ n =>
    simp only [equalWithin, Bool.or_eq_true, beq_iff_eq, Bool.and_eq_true, List.all_eq_true]
      at equal
    rcases equal with rfl | ⟨lengths, pairs⟩
    · exact ⟨w, child, Or.inl rfl⟩
    · obtain ⟨i, inside, rfl⟩ := List.mem_iff_getElem.mp child
      have across : i < (s.items k).length := by omega
      have pair : ((s.items h)[i], (s.items k)[i]) ∈ (s.items h).zip (s.items k) :=
        List.mem_iff_getElem.mpr ⟨i, by rw [List.length_zip]; omega, List.getElem_zip⟩
      exact ⟨(s.items k)[i], List.getElem_mem across, Or.inr ⟨n, pairs _ pair⟩⟩

theorem dictionary_looksLike {h k : Handle} {w : Value} {n : Nat}
    (equal : s.equalWithin n (.dictionary h) (.dictionary k) = true)
    (child : w ∈ (s.entries h).values) : ∃ u ∈ (s.entries k).values, s.LooksLike w u := by
  cases n with
  | zero =>
    obtain rfl : h = k := by simpa [equalWithin] using equal
    exact ⟨w, child, Or.inl rfl⟩
  | succ n =>
    simp only [equalWithin, Bool.or_eq_true, beq_iff_eq, Bool.and_eq_true, List.all_eq_true]
      at equal
    rcases equal with rfl | ⟨_, pairs⟩
    · exact ⟨w, child, Or.inl rfl⟩
    · obtain ⟨p, listed, rfl⟩ := List.mem_map.mp child
      have entry := pairs p listed
      split at entry
      · rename_i u found
        exact ⟨u, Entries.mem_values_of_get? found, Or.inr ⟨n, entry⟩⟩
      · cases entry

theorem looksLike_child {a b w : Value} (like : s.LooksLike a b) (child : s.HasChild a w) :
    ∃ u, s.HasChild b u ∧ s.LooksLike w u := by
  rcases like with rfl | ⟨n, equal⟩
  · exact ⟨w, child, Or.inl rfl⟩
  · cases a with
    | array h =>
      cases b with
      | array k => exact array_looksLike equal child
      | _ => simp [equalWithin] at equal
    | dictionary h =>
      cases b with
      | dictionary k => exact dictionary_looksLike equal child
      | _ => simp [equalWithin] at equal
    | _ => simp [HasChild, children] at child

theorem looksLike_walk {a b w : Value} (like : s.LooksLike a b)
    (walk : Relation.TransGen s.HasChild a w) :
    ∃ u, Relation.TransGen s.HasChild b u ∧ s.LooksLike w u := by
  induction walk with
  | single child =>
    obtain ⟨u, beside, alike⟩ := looksLike_child like child
    exact ⟨u, .single beside, alike⟩
  | tail _ child ih =>
    obtain ⟨u, walk, alike⟩ := ih
    obtain ⟨u', beside, alike'⟩ := looksLike_child alike child
    exact ⟨u', walk.tail beside, alike'⟩

theorem not_below_of_looksLike (acyclic : s.Acyclic) (like : s.LooksLike v c) :
    ¬ Relation.TransGen s.HasChild v c := by
  induction v using (acyclic_wellFounded acyclic).transGen.induction generalizing c with
  | h v ih =>
    intro walk
    -- the walk from `v` to `c` can be made from `c` as well, and then without end
    obtain ⟨d, onward, alike⟩ := looksLike_walk like walk
    exact ih c (Relation.transGen_swap.mpr walk) alike onward

theorem holds_of_equal_iff (acyclic : s.Acyclic) (container : c.IsContainer)
    (equal : s.equal v c = true) : s.holds v c = true ↔ v = c := by
  rw [holds_iff acyclic container]
  constructor
  · intro reach
    rcases Relation.reflTransGen_iff_eq_or_transGen.mp reach with same | walk
    · exact same.symm
    · exact absurd walk (not_below_of_looksLike acyclic (Or.inr ⟨_, equal⟩))
  · rintro rfl
    exact .refl

/-- In `t` the container `c` holds `v` and nothing else that is new, and all other containers are
    those of `s`. -/
structure Stored (s : Store) (c v : Value) (t : Store) : Prop where
  inside : t.HasChild c v
  rest : ∀ w, t.HasChild c w → w = v ∨ s.HasChild c w
  others : ∀ u, u ≠ c → t.children u = s.children u

theorem Stored.returns_iff (stored : s.Stored c v t) (acyclic : s.Acyclic) :
    Relation.TransGen t.HasChild c c ↔ s.Reaches v c := by
  constructor
  · intro cycle
    obtain ⟨w, first, back⟩ := Relation.TransGen.head'_iff.mp cycle
    have old : s.Reaches w c := reaches_back_of_changed_at stored.others back
    rcases stored.rest w first with rfl | child
    · exact old
    · exact absurd old (acyclic_no_return acyclic child)
  · intro reach
    refine .head' stored.inside ?_
    exact reaches_back_of_changed_at (fun u other => (stored.others u other).symm) reach

theorem Stored.acyclic_iff (stored : s.Stored c v t) (acyclic : s.Acyclic) :
    t.Acyclic ↔ ¬ s.Reaches v c := by
  constructor
  · intro after reach
    exact after c ((stored.returns_iff acyclic).mpr reach)
  · intro apart
    refine acyclic_of_changed_at acyclic stored.others fun w child reach => ?_
    rcases stored.rest w child with rfl | old
    · exact apart reach
    · exact acyclic_no_return acyclic old reach

end Store

namespace Member

theorem put_stored {s : Store} {object key current : Value} {put : Value → Store → Store}
    (place : Place s object key current put) (known : s.Knows object) (next : Value) :
    s.Stored object next (put next s) where
  inside := by
    cases place with
    | @element h _ _ i _ there =>
      obtain ⟨inside, _⟩ := List.getElem?_eq_some_iff.mp there
      have items : (s.setItems h ((s.items h).set i next)).items h = (s.items h).set i next :=
        Store.items_setItems_self (by simp)
      simpa [Store.HasChild, Store.children, items] using List.mem_set inside next
    | @entry h _ name _ =>
      have entries := Store.entries_setEntries_self known ((s.entries h).insert name next)
      have found : ((s.entries h).insert name next).get? name = some next := by
        simp [Entries.get?_insert]
      simpa [Store.HasChild, Store.children, entries] using Entries.mem_values_of_get? found
  rest _ child := put_children place child
  others := put_keeps_others place next s

theorem rejectCycle_error_iff {s : Store} {c v : Value} :
    rejectCycle s c v = .error (.cyclicReference c.valueType) ↔ s.holds v c = true := by
  by_cases held : s.holds v c = true <;> simp [rejectCycle, held]

/-- On an acyclic store the search for a container ends with one answer, which is yes exactly if a
    path leads to the container. Of the values with the contents of the container only the container
    itself counts. A value is refused exactly if the container, once the value is put into it by
    whatever write, reaches itself; if not, the store stays acyclic. -/
theorem holds_exactly_what_it_reaches {s : Store} (acyclic : s.Acyclic) {c : Value}
    (container : c.IsContainer) (v : Value) :
    (∀ b, s.Search c v b ↔ b = s.holds v c) ∧
    (s.holds v c = true ↔ s.Reaches v c) ∧
    (s.equal v c = true → (s.holds v c = true ↔ v = c)) ∧
    (∀ key current put, Place s c key current put → s.Knows c → s.Stored c v (put v s)) ∧
    ∀ t, s.Stored c v t →
      (rejectCycle s c v = .error (.cyclicReference c.valueType) ↔
        Relation.TransGen t.HasChild c c) ∧
      (rejectCycle s c v = .ok () ↔ t.Acyclic) := by
  have reached := Store.holds_iff acyclic container v
  refine ⟨fun b => Store.search_iff acyclic container, reached,
    Store.holds_of_equal_iff acyclic container, ?_, ?_⟩
  · intro key current put place known
    exact put_stored place known v
  · intro t stored
    rw [rejectCycle_error_iff, rejectCycle_ok_iff, Ne, reached]
    exact ⟨(stored.returns_iff acyclic).symm, (stored.acyclic_iff acyclic).symm⟩

def nest : Store :=
  let s := ((Store.empty.newArray [.bool true]).2.newDictionary .empty).2
  let s := s.setEntries 0 ((s.entries 0).insert "list" (.array 0))
  ((s.newArray [.dictionary 0]).2.newArray [.bool true]).2

theorem nest_sound : nest.Sound := by
  have first : (Store.empty.newArray [.bool true]).2.Sound :=
    Store.sound_newArray Store.empty_sound (by simp [Store.Knows])
  have filled := insert_sound (h := 0) (v := .array 0) "list" (Store.sound_newDictionary first)
    (show 0 < 1 by decide) rfl
  refine Store.sound_newArray (Store.sound_newArray filled ?_) (by simp [Store.Knows])
  simp [Store.Knows, Store.setEntries, Store.newDictionary]

theorem holds_exactly_what_it_reaches_nest :
    nest.Acyclic ∧ (Value.array 0).IsContainer ∧
      nest.Search (.array 0) (.array 1) true ∧ nest.Reaches (.array 1) (.array 0) ∧
      rejectCycle nest (.array 0) (.array 1) = .error (.cyclicReference .array) ∧
      Relation.TransGen (nest.setItems 0 [.array 1]).HasChild (.array 0) (.array 0) ∧
      nest.equal (.array 2) (.array 0) = true ∧ nest.holds (.array 2) (.array 0) = false ∧
      rejectCycle nest (.array 0) (.array 2) = .ok () ∧
      (nest.setItems 0 [.array 2]).Acyclic := by
  have acyclic := nest_sound.acyclic
  have place : Place nest (.array 0) .null (.bool true)
      fun next t => t.setItems 0 ((t.items 0).set 0 next) := .element rfl rfl
  have known : nest.Knows (.array 0) := show 0 < 3 by decide
  obtain ⟨search, reached, _, written, refused⟩ :=
    holds_exactly_what_it_reaches acyclic (c := .array 0) trivial (.array 1)
  obtain ⟨_, _, alike, written', refused'⟩ :=
    holds_exactly_what_it_reaches acyclic (c := .array 0) trivial (.array 2)
  have equal : nest.equal (.array 2) (.array 0) = true := rfl
  have apart : nest.holds (.array 2) (.array 0) = false := by
    refine Bool.eq_false_iff.mpr fun held => ?_
    cases (alike equal).mp held
  have cycle : rejectCycle nest (.array 0) (.array 1) = .error (.cyclicReference .array) := rfl
  have free : rejectCycle nest (.array 0) (.array 2) = .ok () :=
    rejectCycle_ok_iff.mpr (by simp [apart])
  exact ⟨acyclic, trivial, (search true).mpr rfl, reached.mp rfl, cycle,
    (refused _ (written _ _ _ place known)).1.mp cycle, equal, apart, free,
    (refused' _ (written' _ _ _ place known)).2.mp free⟩

end Member
end FlowScript
