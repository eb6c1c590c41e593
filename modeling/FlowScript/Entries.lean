/-!
Named entries in the order in which their names were first inserted. Overwriting keeps the place of
a name, erasing keeps the order of the others.
-/
namespace FlowScript

structure Entries (α : Type) where
  toList : List (String × α)
  deriving Repr

namespace Entries

variable {α : Type}

def empty : Entries α := ⟨[]⟩

instance : Inhabited (Entries α) := ⟨empty⟩

def size (e : Entries α) : Nat := e.toList.length

def keys (e : Entries α) : List String := e.toList.map (·.1)

def values (e : Entries α) : List α := e.toList.map (·.2)

def get? (e : Entries α) (name : String) : Option α := e.toList.lookup name

def contains (e : Entries α) (name : String) : Bool := (e.get? name).isSome

def insertList (name : String) (value : α) : List (String × α) → List (String × α)
  | [] => [(name, value)]
  | (n, v) :: rest =>
    if n = name then (name, value) :: rest else (n, v) :: insertList name value rest

def insert (e : Entries α) (name : String) (value : α) : Entries α :=
  ⟨insertList name value e.toList⟩

def erase (e : Entries α) (name : String) : Entries α :=
  ⟨e.toList.eraseP fun p => p.1 == name⟩

def ofList (pairs : List (String × α)) : Entries α :=
  pairs.foldl (fun e p => e.insert p.1 p.2) empty

theorem get?_insert (e : Entries α) (name other : String) (value : α) :
    (e.insert name value).get? other = if other = name then some value else e.get? other := by
  unfold get? insert
  dsimp only
  induction e.toList with
  | nil =>
    by_cases h : other = name
    · simp [insertList, h]
    · simp [insertList, List.lookup_cons, h, beq_eq_false_iff_ne.2 h]
  | cons p rest ih =>
    obtain ⟨n, v⟩ := p
    by_cases same : n = name
    · subst same
      by_cases h : other = n
      · simp [insertList, h]
      · simp [insertList, List.lookup_cons, h, beq_eq_false_iff_ne.2 h]
    · by_cases h : other = n
      · subst h
        simp [insertList, same]
      · simp only [insertList, same, ↓reduceIte, List.lookup_cons, beq_eq_false_iff_ne.2 h]
        exact ih

theorem keys_insert (e : Entries α) (name : String) (value : α) :
    (e.insert name value).keys = if name ∈ e.keys then e.keys else e.keys ++ [name] := by
  unfold keys insert
  dsimp only
  induction e.toList with
  | nil => simp [insertList]
  | cons p rest ih =>
    obtain ⟨n, v⟩ := p
    by_cases same : n = name
    · simp [insertList, same]
    · simp only [insertList, same, ↓reduceIte, List.map_cons, ih, List.mem_cons]
      by_cases member : name ∈ rest.map (·.1)
      · simp [member]
      · simp [member, Ne.symm same]

end Entries
end FlowScript
