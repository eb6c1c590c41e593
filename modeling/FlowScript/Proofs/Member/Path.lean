import FlowScript.Proofs.Member.Assign

/-!
Ways through a store along keys. Each key leads from a container to one of its places. Main
statement: a value that is stored at the end of a way is found there, and the way to it stays as it
was, since in a store without cycles it does not come through the container that it ends in.
-/
namespace FlowScript.Member

variable {s t : Store} {object key current : Value} {put : Value → Store → Store}

theorem assign_of_place (place : Place s object key current put) (op : AssignOp) (rhs : Value) :
    assign s object key op rhs =
      match Operator.combine s op current rhs with
      | .error e => (.error e, s)
      | .ok (next, t) =>
        if t.holds next object then (.error (.cyclicReference object.valueType), t)
        else (.ok (.stored next), put next t) := by
  cases place with
  | element named there =>
    simp only [assign, named, Option.bind_some, there]
    cases Operator.combine s op current rhs with
    | error e => rfl
    | ok combined => exact store_eq _ _ _ _
  | @entry h _ name named =>
    simp only [assign, named]
    cases Operator.combine s op (((s.entries h).get? name).getD .null) rhs with
    | error e => rfl
    | ok combined => exact store_eq _ _ _ _

theorem Place.later (place : Place s object key current put) (grows : s.Grows t) :
    ∃ other, Place t object key other put := by
  cases place with
  | @element h _ _ i named there =>
    obtain ⟨inside, _⟩ := List.getElem?_eq_some_iff.mp there
    have given : h < s.arrays.size := by
      refine Nat.lt_of_not_le ?_
      intro outside
      simp [Store.items, Array.getElem?_eq_none outside] at inside
    rw [← grows.lengths h given] at inside
    exact ⟨_, .element named (List.getElem?_eq_getElem inside)⟩
  | entry named => exact ⟨_, .entry named⟩

/-- One entry of one container has got the value `v`, and nothing else has changed. -/
inductive StoredAt (s t : Store) (v : Value) : (container key : Value) → Prop where
  | element {h : Handle} {key : Value} {i : Nat} (named : index? key = .ok (some i))
      (there : i < (s.items h).length) (items : t.items h = (s.items h).set i v)
      (arrays : ∀ k, k ≠ h → t.items k = s.items k)
      (dictionaries : ∀ k, t.entries k = s.entries k) : StoredAt s t v (.array h) key
  | entry {h : Handle} {key : Value} {name : String} (named : keyText key = .ok name)
      (found : ∀ n, (t.entries h).get? n = if n = name then some v else (s.entries h).get? n)
      (keys : (t.entries h).keys =
        if name ∈ (s.entries h).keys then (s.entries h).keys else (s.entries h).keys ++ [name])
      (arrays : ∀ k, t.items k = s.items k)
      (dictionaries : ∀ k, k ≠ h → t.entries k = s.entries k) : StoredAt s t v (.dictionary h) key

theorem put_storedAt (place : Place s object key current put) (known : s.Knows object) (v : Value) :
    StoredAt s (put v s) v object key := by
  cases place with
  | @element h _ _ i named there =>
    refine .element named (List.getElem?_eq_some_iff.mp there).1 ?_ ?_ fun _ => rfl
    · exact Store.items_setItems_self (List.length_set ..)
    · exact fun k other => Store.items_setItems_of_ne other _
  | @entry h _ name named =>
    have stored : (s.setEntries h ((s.entries h).insert name v)).entries h =
        (s.entries h).insert name v := by
      have inside : h < s.dictionaries.size := known
      simp [Store.entries, Store.setEntries, inside]
    refine .entry named ?_ ?_ (fun _ => rfl) fun k other => Store.entries_setEntries_of_ne other _
    · intro n
      rw [stored, Entries.get?_insert]
    · rw [stored, Entries.keys_insert]

theorem StoredAt.read_back {v : Value} (stored : StoredAt s t v object key) :
    read t object key = .ok v := by
  cases stored with
  | element named there items =>
    refine read_iff.mpr ⟨_, .element named ?_⟩
    rw [items, List.getElem?_set_self there]
  | entry named found => simp [read, named, found]

theorem StoredAt.read_elsewhere {v other k w : Value} (stored : StoredAt s t v object key)
    (apart : other ≠ object) (found : read s other k = .ok w) : read t other k = .ok w := by
  have items (h : Handle) (here : other = .array h) : t.items h = s.items h := by
    cases stored with
    | element _ _ _ arrays => exact arrays h fun same => apart (by rw [here, same])
    | entry _ _ _ arrays => exact arrays h
  have entries (h : Handle) (here : other = .dictionary h) : t.entries h = s.entries h := by
    cases stored with
    | element _ _ _ _ dictionaries => exact dictionaries h
    | entry _ _ _ _ dictionaries => exact dictionaries h fun same => apart (by rw [here, same])
  obtain ⟨put, place⟩ := read_iff.mp found
  cases place with
  | element named there => exact read_iff.mpr ⟨_, .element named (items _ rfl ▸ there)⟩
  | entry named => simp [read, named, entries _ rfl]

def walk (s : Store) (v : Value) : List Value → Except RunError Value
  | [] => .ok v
  | key :: path =>
    match read s v key with
    | .ok inner => walk s inner path
    | .error e => .error e

theorem walk_append (v : Value) (path more : List Value) :
    walk s v (path ++ more) =
      match walk s v path with
      | .ok w => walk s w more
      | .error e => .error e := by
  induction path generalizing v with
  | nil => rfl
  | cons key rest ih =>
    simp only [List.cons_append, walk]
    cases read s v key with
    | ok inner => exact ih inner
    | error e => rfl

theorem read_child {w : Value} (found : read s object key = .ok w) :
    w = .null ∨ s.HasChild object w := by
  obtain ⟨put, place⟩ := read_iff.mp found
  cases place with
  | element _ there => exact .inr (List.mem_of_getElem? there)
  | @entry h _ name _ =>
    cases there : (s.entries h).get? name with
    | none => exact .inl rfl
    | some w => exact .inr (Entries.mem_values_of_get? there)

theorem walk_null {path : List Value} {w : Value} (found : walk s .null path = .ok w) :
    w = .null := by
  cases path with
  | nil =>
    cases found
    rfl
  | cons key rest => cases found

theorem walk_reaches {path : List Value} {v c : Value} (container : c.IsContainer)
    (found : walk s v path = .ok c) : s.Reaches v c := by
  induction path generalizing v with
  | nil =>
    cases found
    exact .refl
  | cons key rest ih =>
    unfold walk at found
    split at found
    · rename_i inner there
      rcases read_child there with null | child
      · subst null
        rw [walk_null found] at container
        exact absurd container id
      · exact (ih found).head child
    · cases found

theorem walk_known (sound : s.Sound) {path : List Value} {v w : Value} (known : s.Knows v)
    (found : walk s v path = .ok w) : s.Knows w := by
  induction path generalizing v with
  | nil =>
    cases found
    exact known
  | cons key rest ih =>
    unfold walk at found
    split at found
    · rename_i inner there
      exact ih (read_known sound there) found
    · cases found

/-- The way to a container does not come through the container before its end, so what is stored in
    the container does not change the way. -/
theorem StoredAt.same_way {v w : Value} (acyclic : s.Acyclic) (container : object.IsContainer)
    (stored : StoredAt s t v object key) {path : List Value} (way : walk s w path = .ok object) :
    walk t w path = .ok object := by
  induction path generalizing w with
  | nil => exact way
  | cons k rest ih =>
    unfold walk at way ⊢
    split at way
    · rename_i inner there
      have apart : w ≠ object := by
        rintro rfl
        rcases read_child there with null | child
        · subst null
          rw [walk_null way] at container
          exact container
        · exact Store.acyclic_no_return acyclic child (walk_reaches container way)
      rw [stored.read_elsewhere apart there]
      exact ih way
    · cases way

theorem StoredAt.walk_back {v w : Value} (acyclic : s.Acyclic) (container : object.IsContainer)
    (stored : StoredAt s t v object key) {path : List Value} (way : walk s w path = .ok object) :
    walk t w (path ++ [key]) = .ok v := by
  rw [walk_append, stored.same_way acyclic container way]
  simp only [walk, stored.read_back]

end FlowScript.Member
