import FlowScript.Scope
import Mathlib.Data.List.Nodup

/-!
Local variables and the frames that they live in. Main statement: what an assignment does to the
frames, and what is read off them before and after it.
-/
namespace FlowScript

namespace Entries

variable {α : Type}

theorem contains_iff {e : Entries α} {name : String} : e.contains name = true ↔ name ∈ e.keys := by
  obtain ⟨pairs⟩ := e
  simp only [contains, get?, keys]
  induction pairs with
  | nil => simp
  | cons p rest ih =>
    rw [List.lookup_cons, List.map_cons, List.mem_cons, ← ih]
    by_cases same : name = p.1
    · simp [same]
    · simp [same, beq_eq_false_iff_ne.mpr same]

theorem contains_eq_false {e : Entries α} {name : String} :
    e.contains name = false ↔ name ∉ e.keys := by
  rw [← contains_iff, Bool.not_eq_true]

theorem get?_eq_none {e : Entries α} {name : String} (absent : e.contains name = false) :
    e.get? name = none := by
  simpa [contains] using absent

theorem keys_insert_of_mem {e : Entries α} {name : String} (value : α) (there : name ∈ e.keys) :
    (e.insert name value).keys = e.keys := by
  rw [keys_insert, if_pos there]

theorem toList_insert_of_new {e : Entries α} {name : String} (value : α) (new : name ∉ e.keys) :
    (e.insert name value).toList = e.toList ++ [(name, value)] := by
  obtain ⟨pairs⟩ := e
  simp only [keys, insert] at *
  induction pairs with
  | nil => rfl
  | cons p rest ih =>
    rw [List.map_cons, List.mem_cons, not_or] at new
    rw [insertList, if_neg (Ne.symm new.1), ih new.2, List.cons_append]

theorem toList_ofList {pairs : List (String × α)} (distinct : (pairs.map (·.1)).Nodup) :
    (ofList pairs).toList = pairs := by
  suffices ∀ e : Entries α, (e.toList.map (·.1) ++ pairs.map (·.1)).Nodup →
      (pairs.foldl (fun e p => e.insert p.1 p.2) e).toList = e.toList ++ pairs from
    this empty distinct
  clear distinct
  induction pairs with
  | nil =>
    intro e _
    simp
  | cons p rest ih =>
    intro e distinct
    have new : p.1 ∉ e.keys := by
      intro there
      rw [List.map_cons, List.nodup_append] at distinct
      exact distinct.2.2 p.1 there p.1 (by simp) rfl
    rw [List.foldl_cons, ih, toList_insert_of_new p.2 new]
    · simp
    · rw [toList_insert_of_new p.2 new]
      simpa using distinct

end Entries

theorem lookup_eq_some_of_nodup {α : Type} {pairs : List (String × α)}
    (distinct : (pairs.map (·.1)).Nodup) {name : String} {v : α} :
    pairs.lookup name = some v ↔ (name, v) ∈ pairs := by
  induction pairs with
  | nil => simp
  | cons p rest ih =>
    obtain ⟨n, w⟩ := p
    rw [List.map_cons, List.nodup_cons] at distinct
    rw [List.lookup_cons, List.mem_cons, ← ih distinct.2]
    by_cases same : name = n
    · subst same
      have gone : rest.lookup name ≠ some v := by
        intro found
        exact distinct.1 (List.mem_map.mpr ⟨_, (ih distinct.2).mp found, rfl⟩)
      simp [gone, eq_comm]
    · simp [same, beq_eq_false_iff_ne.mpr same]

namespace Scope

variable {sc : Scope} {name : String} {v : Value}

@[simp] theorem setLocal_globals : (sc.setLocal name v).globals = sc.globals := by
  unfold setLocal
  repeat' split
  all_goals rfl

@[simp] theorem setLocal_lastError : (sc.setLocal name v).lastError = sc.lastError := by
  unfold setLocal
  repeat' split
  all_goals rfl

@[simp] theorem setGlobal_frames : (sc.setGlobal name v).frames = sc.frames := rfl

@[simp] theorem getGlobal_frames : (sc.getGlobal name).2.frames = sc.frames := by
  unfold getGlobal
  dsimp only
  split <;> rfl

theorem overwrite?_eq_some {fs gs : List Frame} (done : overwrite? name v fs = some gs) :
    ∃ inner f rest, fs = inner ++ f :: rest ∧ (∀ g ∈ inner, g.contains name = false) ∧
      f.contains name = true ∧ gs = inner ++ f.insert name v :: rest := by
  induction fs generalizing gs with
  | nil => cases done
  | cons f rest ih =>
    unfold overwrite? at done
    split at done
    · rename_i here
      cases done
      exact ⟨[], f, rest, rfl, by simp, here, rfl⟩
    · rename_i elsewhere
      obtain ⟨later, found, rfl⟩ := Option.map_eq_some_iff.mp done
      obtain ⟨inner, g, outer, rfl, free, there, rfl⟩ := ih found
      refine ⟨f :: inner, g, outer, rfl, ?_, there, rfl⟩
      exact List.forall_mem_cons.mpr ⟨by simpa using elsewhere, free⟩

theorem overwrite?_eq_none {fs : List Frame} (none : overwrite? name v fs = none) :
    ∀ f ∈ fs, f.contains name = false := by
  induction fs with
  | nil => simp
  | cons f rest ih =>
    unfold overwrite? at none
    split at none
    · cases none
    · rename_i elsewhere
      exact List.forall_mem_cons.mpr ⟨by simpa using elsewhere, ih (Option.map_eq_none_iff.mp none)⟩

/-- An assignment goes to the innermost frame that has the name, or else to the innermost of all. -/
theorem setLocal_cases (sc : Scope) (name : String) (v : Value) :
    (∃ inner f rest, sc.frames = inner ++ f :: rest ∧ (∀ g ∈ inner, g.contains name = false) ∧
      f.contains name = true ∧ (sc.setLocal name v).frames = inner ++ f.insert name v :: rest) ∨
    ((∀ f ∈ sc.frames, f.contains name = false) ∧
      (sc.setLocal name v).frames = sc.frame.insert name v :: sc.outer) := by
  unfold setLocal
  split
  · rename_i here
    exact .inl ⟨[], sc.frame, sc.outer, rfl, by simp, here, rfl⟩
  · rename_i elsewhere
    have free : sc.frame.contains name = false := by simpa using elsewhere
    split
    · rename_i outer done
      obtain ⟨inner, f, rest, split, before, there, rfl⟩ := overwrite?_eq_some done
      refine .inl ⟨sc.frame :: inner, f, rest, ?_, ?_, there, rfl⟩
      · rw [frames, split, List.cons_append]
      · exact List.forall_mem_cons.mpr ⟨free, before⟩
    · rename_i none
      exact .inr ⟨List.forall_mem_cons.mpr ⟨free, overwrite?_eq_none none⟩, rfl⟩

theorem findSome?_of_free {fs : List Frame} (free : ∀ f ∈ fs, f.contains name = false) :
    fs.findSome? (·.get? name) = none := by
  rw [List.findSome?_eq_none_iff]
  intro f listed
  exact Entries.get?_eq_none (free f listed)

theorem local?_setLocal (sc : Scope) (name : String) (v : Value) (other : String) :
    (sc.setLocal name v).local? other = if other = name then some v else sc.local? other := by
  unfold local?
  rcases setLocal_cases sc name v with ⟨inner, f, rest, split, free, _, after⟩ | ⟨free, after⟩
  · rw [after, split]
    by_cases same : other = name
    · subst same
      simp [List.findSome?_append, findSome?_of_free free, Entries.get?_insert]
    · simp [List.findSome?_append, List.findSome?_cons, Entries.get?_insert, same]
  · rw [after, frames]
    by_cases same : other = name
    · simp [Entries.get?_insert, same]
    · simp [List.findSome?_cons, Entries.get?_insert, same]

theorem hasLocal_iff : sc.hasLocal name = true ↔ ∃ f ∈ sc.frames, name ∈ f.keys := by
  simp only [hasLocal, List.any_eq_true, Entries.contains_iff]

theorem isSome_local? : (sc.local? name).isSome = sc.hasLocal name := by
  rw [local?, hasLocal, List.isSome_findSome?]
  rfl

theorem getLocal_eq_ok : sc.getLocal name = .ok v ↔ sc.local? name = some v := by
  unfold getLocal
  cases sc.local? name <;> simp

end Scope
end FlowScript
