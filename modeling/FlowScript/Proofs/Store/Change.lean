import FlowScript.Proofs.Store.Reach

/-!
What becomes of a store when one of its containers changes or a new one is given out. Stores grow:
handles stay known, and an array keeps its length. Main statement: a store stays sound, that is
acyclic and without handles that were never given out, when no new element of the changed container
reaches that container.
-/
namespace FlowScript

namespace Entries

variable {α : Type}

theorem mem_values_insert {e : Entries α} {name : String} {value v : α}
    (member : v ∈ (e.insert name value).values) : v = value ∨ v ∈ e.values := by
  obtain ⟨pairs⟩ := e
  simp only [values, insert] at *
  induction pairs with
  | nil => simpa [insertList] using member
  | cons p rest ih =>
    by_cases same : p.1 = name
    · simp only [insertList, same, ↓reduceIte, List.map_cons, List.mem_cons] at member ⊢
      rcases member with new | old
      · exact Or.inl new
      · exact Or.inr (Or.inr old)
    · simp only [insertList, same, ↓reduceIte, List.map_cons, List.mem_cons] at member ⊢
      rcases member with first | later
      · exact Or.inr (Or.inl first)
      · rcases ih later with new | old
        · exact Or.inl new
        · exact Or.inr (Or.inr old)

theorem mem_values_erase {e : Entries α} {name : String} {v : α}
    (member : v ∈ (e.erase name).values) : v ∈ e.values :=
  List.map_subset _ (List.eraseP_sublist.subset) member

theorem mem_values_of_get? {e : Entries α} {name : String} {v : α} (found : e.get? name = some v) :
    v ∈ e.values := by
  obtain ⟨pairs⟩ := e
  simp only [get?, values] at *
  induction pairs with
  | nil => simp at found
  | cons p rest ih =>
    rw [List.lookup_cons] at found
    split at found
    · simp [Option.some.inj found]
    · exact List.mem_cons_of_mem _ (ih found)

end Entries

namespace Store

variable {s t : Store} {h : Handle}

theorem items_setItems_of_ne {k : Handle} (other : k ≠ h) (vs : List Value) :
    (s.setItems h vs).items k = s.items k := by
  simp [items, setItems, Array.getElem?_setIfInBounds_ne (Ne.symm other)]

theorem items_setItems_self {vs : List Value} (same : vs.length = (s.items h).length) :
    (s.setItems h vs).items h = vs := by
  by_cases inside : h < s.arrays.size
  · simp [items, setItems, inside]
  · have none : s.items h = [] := by simp [items, Array.getElem?_eq_none (Nat.le_of_not_lt inside)]
    rw [none, List.length_nil, List.length_eq_zero_iff] at same
    simp [items, setItems, same, inside]

theorem entries_setEntries_of_ne {k : Handle} (other : k ≠ h) (e : Entries Value) :
    (s.setEntries h e).entries k = s.entries k := by
  simp [entries, setEntries, Array.getElem?_setIfInBounds_ne (Ne.symm other)]

theorem children_setItems_of_ne {v : Value} (other : v ≠ .array h) (vs : List Value) :
    (s.setItems h vs).children v = s.children v := by
  cases v with
  | array k => exact items_setItems_of_ne (fun same => other (congrArg Value.array same)) vs
  | _ => rfl

theorem children_setEntries_of_ne {v : Value} (other : v ≠ .dictionary h) (e : Entries Value) :
    (s.setEntries h e).children v = s.children v := by
  cases v with
  | dictionary k =>
    exact congrArg Entries.values
      (entries_setEntries_of_ne (fun same => other (congrArg Value.dictionary same)) e)
  | _ => rfl

theorem mem_of_child_setItems {vs : List Value} {w : Value}
    (child : (s.setItems h vs).HasChild (.array h) w) : w ∈ vs := by
  by_cases inside : h < s.arrays.size
  · simpa [HasChild, children, items, setItems, inside] using child
  · simp [HasChild, children, items, setItems, inside] at child

theorem mem_of_child_setEntries {e : Entries Value} {w : Value}
    (child : (s.setEntries h e).HasChild (.dictionary h) w) : w ∈ e.values := by
  by_cases inside : h < s.dictionaries.size
  · simpa [HasChild, children, entries, setEntries, inside] using child
  · simp [HasChild, children, entries, setEntries, inside, Entries.values, Entries.empty] at child

theorem reaches_back_of_changed_at {c v : Value}
    (same : ∀ v, v ≠ c → t.children v = s.children v) (reach : t.Reaches v c) : s.Reaches v c := by
  induction reach using Relation.ReflTransGen.head_induction_on with
  | refl => exact .refl
  | @head u w first _ ih =>
    by_cases start : u = c
    · subst start
      exact .refl
    · exact ih.head (by simpa [HasChild, same u start] using first)

/-- Whatever the new walk does before it comes to the changed container, the old one could do. -/
theorem walk_of_changed_at {c v w : Value} (same : ∀ v, v ≠ c → t.children v = s.children v)
    (walk : Relation.TransGen t.HasChild v w) :
    Relation.TransGen s.HasChild v w ∨ t.Reaches v c ∧ Relation.TransGen t.HasChild c w := by
  induction walk using Relation.TransGen.head_induction_on with
  | @single v last =>
    by_cases start : v = c
    · subst start
      exact Or.inr ⟨.refl, .single last⟩
    · exact Or.inl (.single (by simpa [HasChild, same v start] using last))
  | @head v u first walk ih =>
    by_cases start : v = c
    · subst start
      exact Or.inr ⟨.refl, .head first walk⟩
    · rcases ih with old | ⟨before, after⟩
      · exact Or.inl (.head (by simpa [HasChild, same v start] using first) old)
      · exact Or.inr ⟨before.head first, after⟩

theorem acyclic_of_changed_at {c : Value} (acyclic : s.Acyclic)
    (same : ∀ v, v ≠ c → t.children v = s.children v)
    (fresh : ∀ w, t.HasChild c w → ¬ s.Reaches w c) : t.Acyclic := by
  intro v cycle
  rcases walk_of_changed_at same cycle with old | ⟨before, after⟩
  · exact acyclic v old
  · obtain ⟨w, first, rest⟩ := Relation.TransGen.head'_iff.mp (after.trans_left before)
    exact fresh w first (reaches_back_of_changed_at same rest)

def Knows (s : Store) : Value → Prop
  | .array h => h < s.arrays.size
  | .dictionary h => h < s.dictionaries.size
  | _ => True

theorem entries_setEntries_self (known : s.Knows (.dictionary h)) (e : Entries Value) :
    (s.setEntries h e).entries h = e := by
  simp [entries, setEntries, show h < s.dictionaries.size from known]

/-- What every step of a run does to the store: it gives out no handle twice and never changes the
    length of an array. -/
structure Grows (s t : Store) : Prop where
  arrays : s.arrays.size ≤ t.arrays.size
  dictionaries : s.dictionaries.size ≤ t.dictionaries.size
  lengths : ∀ h, h < s.arrays.size → (t.items h).length = (s.items h).length

theorem Grows.refl (s : Store) : s.Grows s := ⟨Nat.le_refl _, Nat.le_refl _, fun _ _ => rfl⟩

theorem Grows.trans {u : Store} (first : s.Grows t) (second : t.Grows u) : s.Grows u where
  arrays := Nat.le_trans first.arrays second.arrays
  dictionaries := Nat.le_trans first.dictionaries second.dictionaries
  lengths h known := by
    rw [second.lengths h (Nat.lt_of_lt_of_le known first.arrays), first.lengths h known]

theorem Grows.knows {v : Value} (grows : s.Grows t) (known : s.Knows v) : t.Knows v := by
  cases v with
  | array h => exact Nat.lt_of_lt_of_le known grows.arrays
  | dictionary h => exact Nat.lt_of_lt_of_le known grows.dictionaries
  | _ => trivial

structure Sound (s : Store) : Prop where
  acyclic : s.Acyclic
  closed : ∀ v w, s.HasChild v w → s.Knows w

theorem empty_sound : Store.empty.Sound where
  acyclic := empty_acyclic
  closed v w child := by
    cases v <;> simp [HasChild, children, items, entries, Store.empty, Entries.values, Entries.empty]
      at child

theorem Sound.knows_reached {v w : Value} (sound : s.Sound) (known : s.Knows v)
    (reach : s.Reaches v w) : s.Knows w :=
  reaches_stays_inside (fun v w _ child => sound.closed v w child) reach known

theorem sound_of_changed_at {c : Value} (sound : s.Sound) (grows : s.Grows t)
    (same : ∀ v, v ≠ c → t.children v = s.children v)
    (known : ∀ w, t.HasChild c w → s.Knows w)
    (fresh : ∀ w, t.HasChild c w → ¬ s.Reaches w c) : t.Sound where
  acyclic := acyclic_of_changed_at sound.acyclic same fresh
  closed v w child := by
    by_cases changed : v = c
    · subst changed
      exact grows.knows (known w child)
    · exact grows.knows (sound.closed v w (by simpa [HasChild, same v changed] using child))

theorem grows_setItems {vs : List Value} (same : vs.length = (s.items h).length) :
    s.Grows (s.setItems h vs) where
  arrays := by simp [setItems]
  dictionaries := Nat.le_refl _
  lengths k _ := by
    by_cases changed : k = h
    · rw [changed, items_setItems_self same, same]
    · rw [items_setItems_of_ne changed]

theorem grows_setEntries (s : Store) (h : Handle) (e : Entries Value) :
    s.Grows (s.setEntries h e) where
  arrays := Nat.le_refl _
  dictionaries := by simp [setEntries]
  lengths _ _ := rfl

theorem items_newArray_of_ne {k : Handle} (values : List Value) (other : k ≠ s.arrays.size) :
    (s.newArray values).2.items k = s.items k := by
  simp [items, newArray, Array.getElem?_push, other]

theorem grows_newArray (s : Store) (values : List Value) : s.Grows (s.newArray values).2 where
  arrays := by simp [newArray]
  dictionaries := Nat.le_refl _
  lengths k known := by rw [items_newArray_of_ne values (Nat.ne_of_lt known)]

theorem grows_newDictionary (s : Store) (e : Entries Value) : s.Grows (s.newDictionary e).2 where
  arrays := Nat.le_refl _
  dictionaries := by simp [newDictionary]
  lengths _ _ := rfl

theorem sound_newArray {values : List Value} (sound : s.Sound)
    (known : ∀ v ∈ values, s.Knows v) : (s.newArray values).2.Sound := by
  have inner (w : Value) (child : (s.newArray values).2.HasChild (.array s.arrays.size) w) :
      w ∈ values := by simpa [HasChild, children, items, newArray] using child
  refine sound_of_changed_at (c := .array s.arrays.size) sound (grows_newArray s values) ?_ ?_ ?_
  · intro v other
    cases v with
    | array k => exact items_newArray_of_ne values (fun same => other (congrArg Value.array same))
    | _ => rfl
  · intro w child
    exact known w (inner w child)
  · intro w child reach
    exact Nat.lt_irrefl _ (sound.knows_reached (known w (inner w child)) reach)

theorem sound_newDictionary (sound : s.Sound) : (s.newDictionary .empty).2.Sound := by
  have inner (w : Value) : ¬ (s.newDictionary .empty).2.HasChild (.dictionary s.dictionaries.size) w := by
    simp [HasChild, children, entries, newDictionary, Entries.values, Entries.empty]
  refine sound_of_changed_at (c := .dictionary s.dictionaries.size) sound
    (grows_newDictionary s .empty) ?_ ?_ ?_
  · intro v other
    cases v with
    | dictionary k =>
      have old : k ≠ s.dictionaries.size := fun same => other (congrArg Value.dictionary same)
      simp [children, entries, newDictionary, Array.getElem?_push, old]
    | _ => rfl
  · exact fun w child => absurd child (inner w)
  · exact fun w child => absurd child (inner w)

theorem sound_erase (name : String) (sound : s.Sound) :
    (s.setEntries h ((s.entries h).erase name)).Sound := by
  have inner (w : Value)
      (child : (s.setEntries h ((s.entries h).erase name)).HasChild (.dictionary h) w) :
      s.HasChild (.dictionary h) w :=
    Entries.mem_values_erase (mem_of_child_setEntries child)
  refine sound_of_changed_at (c := .dictionary h) sound (grows_setEntries s h _)
    (fun v other => children_setEntries_of_ne other _) ?_ ?_
  · exact fun w child => sound.closed _ w (inner w child)
  · exact fun w child => acyclic_no_return sound.acyclic (inner w child)

end Store
end FlowScript
