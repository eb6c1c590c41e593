import Mathlib.Logic.Relation
import FlowScript.Store

/-!
Which values a value reaches through array elements and dictionary values, and stores in which no
container reaches itself. In such a store a value weighs more than anything it holds, so every walk
of the store comes to an end. Main statement: `holds` finds exactly what is reached.
-/
namespace FlowScript

def Value.IsContainer : Value → Prop
  | .array _ | .dictionary _ => True
  | _ => False

theorem Value.sameContainer_iff {v c : Value} (container : c.IsContainer) :
    v.sameContainer c = true ↔ v = c := by
  cases c <;> cases v <;> simp_all [sameContainer, IsContainer]

namespace Store

def HasChild (s : Store) (v w : Value) : Prop := w ∈ s.children v

abbrev Reaches (s : Store) : Value → Value → Prop := Relation.ReflTransGen s.HasChild

/-- No value reaches itself by one or more steps. -/
def Acyclic (s : Store) : Prop := ∀ v, ¬ Relation.TransGen s.HasChild v v

theorem empty_acyclic : Store.empty.Acyclic := by
  intro v cycle
  obtain ⟨w, first, _⟩ := Relation.TransGen.head'_iff.mp cycle
  cases v <;> simp [HasChild, children, items, entries, Store.empty, Entries.values, Entries.empty]
    at first

theorem acyclic_no_return {s : Store} (acyclic : s.Acyclic) {v w : Value} (child : s.HasChild v w) :
    ¬ s.Reaches w v := by
  intro back
  exact acyclic v (Relation.TransGen.head' child back)

theorem reaches_stays_inside {s : Store} {inside : Value → Prop}
    (closed : ∀ v w, inside v → s.HasChild v w → inside w) {v w : Value}
    (reach : s.Reaches v w) (start : inside v) : inside w := by
  induction reach with
  | refl => exact start
  | tail _ last ih => exact closed _ _ ih last

theorem reaches_of_no_children {s : Store} {v w : Value} (none : s.children v = [])
    (reach : s.Reaches v w) : w = v := by
  refine (Relation.reflTransGen_iff_eq ?_).mp reach
  intro u child
  simp [HasChild, none] at child

/-- All containers that were given out. -/
def containers (s : Store) : List Value :=
  (List.range s.arrays.size).map .array ++ (List.range s.dictionaries.size).map .dictionary

theorem containers_length (s : Store) : s.containers.length = s.size := by
  simp [containers, size]

theorem containers_nodup (s : Store) : s.containers.Nodup := by
  refine List.nodup_append.mpr ⟨?_, ?_, ?_⟩
  · exact List.Pairwise.map Value.array
      (fun _ _ different same => different (Value.array.inj same)) List.nodup_range
  · exact List.Pairwise.map Value.dictionary
      (fun _ _ different same => different (Value.dictionary.inj same)) List.nodup_range
  · intro v left w right
    simp only [List.mem_map] at left right
    obtain ⟨i, _, rfl⟩ := left
    obtain ⟨j, _, rfl⟩ := right
    simp

theorem parent_is_container {s : Store} {v w : Value} (child : s.HasChild v w) :
    v ∈ s.containers := by
  cases v with
  | array h =>
    have inside : h < s.arrays.size := by
      refine Nat.lt_of_not_le ?_
      intro outside
      simp [HasChild, children, items, Array.getElem?_eq_none outside] at child
    simpa [containers] using inside
  | dictionary h =>
    have inside : h < s.dictionaries.size := by
      refine Nat.lt_of_not_le ?_
      intro outside
      simp [HasChild, children, entries, Array.getElem?_eq_none outside, Entries.values,
        Entries.empty] at child
    simpa [containers] using inside
  | _ => simp [HasChild, children] at child

open Classical in
/-- The number of containers that a value is or holds. -/
noncomputable def weight (s : Store) (v : Value) : Nat :=
  (s.containers.filter fun c => decide (s.Reaches v c)).length

theorem weight_le_size (s : Store) (v : Value) : s.weight v ≤ s.size := by
  rw [← containers_length]
  exact List.length_filter_le _ _

theorem weight_decreases {s : Store} (acyclic : s.Acyclic) {v w : Value} (child : s.HasChild v w) :
    s.weight w < s.weight v := by
  classical
  let below (u : Value) := s.containers.filter fun c => decide (s.Reaches u c)
  have fresh : v ∉ below w := by
    intro member
    exact acyclic_no_return acyclic child (by simpa using (List.mem_filter.mp member).2)
  have nodup : (v :: below w).Nodup := List.nodup_cons.mpr ⟨fresh, (containers_nodup s).filter _⟩
  have subset : v :: below w ⊆ below v := by
    intro c member
    rcases List.mem_cons.mp member with same | later
    · subst c
      exact List.mem_filter.mpr ⟨parent_is_container child, by simp [Relation.ReflTransGen.refl]⟩
    · obtain ⟨listed, reach⟩ := List.mem_filter.mp later
      exact List.mem_filter.mpr ⟨listed, by simpa using (of_decide_eq_true reach).head child⟩
  have bound := nodup.length_le_of_subset subset
  simp only [List.length_cons, below] at bound
  unfold weight
  omega

theorem weight_zero_no_children {s : Store} (acyclic : s.Acyclic) {v : Value}
    (zero : s.weight v = 0) : s.children v = [] := by
  refine List.eq_nil_iff_forall_not_mem.mpr ?_
  intro w member
  have lighter := weight_decreases acyclic (v := v) (w := w) member
  omega

theorem acyclic_wellFounded {s : Store} (acyclic : s.Acyclic) :
    WellFounded fun w v => s.HasChild v w :=
  Subrelation.wf (fun child => weight_decreases acyclic child) (measure s.weight).wf

theorem any_congr_of_mem {l : List Value} {p q : Value → Bool} (same : ∀ w ∈ l, p w = q w) :
    l.any p = l.any q := by
  induction l with
  | nil => rfl
  | cons w rest ih =>
    rw [List.any_cons, List.any_cons, same w (by simp), ih (fun u member => same u (by simp [member]))]

theorem holdsWithin_succ {s : Store} (acyclic : s.Acyclic) (c : Value) (n : Nat) (v : Value)
    (enough : s.weight v ≤ n) : s.holdsWithin c (n + 1) v = s.holdsWithin c n v := by
  induction n generalizing v with
  | zero => simp [holdsWithin, weight_zero_no_children acyclic (Nat.le_zero.mp enough)]
  | succ n ih =>
    rw [holdsWithin, holdsWithin]
    congr 1
    refine any_congr_of_mem fun w member => ?_
    exact ih w (by have := weight_decreases acyclic (v := v) (w := w) member; omega)

/-- The search for a container needs no bound. -/
theorem holds_eq {s : Store} (acyclic : s.Acyclic) (v c : Value) :
    s.holds v c = (v.sameContainer c || (s.children v).any fun w => s.holds w c) := by
  unfold holds depthBound
  rw [holdsWithin]
  congr 1
  refine any_congr_of_mem fun w _ => ?_
  exact (holdsWithin_succ acyclic c s.size w (weight_le_size s w)).symm

theorem holds_iff {s : Store} (acyclic : s.Acyclic) {c : Value} (container : c.IsContainer)
    (v : Value) : s.holds v c = true ↔ s.Reaches v c := by
  induction v using (acyclic_wellFounded acyclic).induction with
  | h v ih =>
    rw [holds_eq acyclic, Bool.or_eq_true, Value.sameContainer_iff container, List.any_eq_true]
    refine Iff.trans ?_ Relation.ReflTransGen.cases_head_iff.symm
    constructor
    · rintro (same | ⟨w, member, below⟩)
      · exact Or.inl same
      · exact Or.inr ⟨w, member, (ih w member).mp below⟩
    · rintro (same | ⟨w, member, below⟩)
      · exact Or.inl same
      · exact Or.inr ⟨w, member, (ih w member).mpr below⟩

end Store
end FlowScript
