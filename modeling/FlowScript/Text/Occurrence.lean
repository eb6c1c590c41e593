/-!
Occurrences of one text in another, found from the left and never overlapping. Splitting, replacing
and counting each go through the text once.
-/
namespace FlowScript.Text

def after? : List Char → List Char → Option (List Char)
  | [], cs => some cs
  | _ :: _, [] => none
  | d :: ds, c :: cs => if d = c then after? ds cs else none

theorem after?_eq_some {d cs rest : List Char} : after? d cs = some rest ↔ cs = d ++ rest := by
  induction d generalizing cs with
  | nil => simp [after?]
  | cons x ds ih =>
    cases cs with
    | nil => simp [after?]
    | cons c cs =>
      by_cases h : x = c
      · simp [after?, h, ih]
      · simp only [after?, h, ↓reduceIte, List.cons_append, List.cons.injEq]
        simp [Ne.symm h]

theorem length_after? {d : Char} {ds cs rest : List Char}
    (found : after? (d :: ds) cs = some rest) : rest.length < cs.length := by
  rw [after?_eq_some.1 found, List.length_append, List.length_cons]
  omega

def pieces (d : Char) (ds : List Char) (cs : List Char) : List (List Char) :=
  go [] cs
where
  /- `piece` is the current piece read backwards. -/
  go (piece : List Char) (cs : List Char) : List (List Char) :=
    match cs with
    | [] => [piece.reverse]
    | c :: rest =>
      match _h : after? (d :: ds) (c :: rest) with
      | some tail => piece.reverse :: go [] tail
      | none => go (c :: piece) rest
  termination_by cs.length
  decreasing_by
    · exact length_after? _h
    · simp

def splitOn (separator cs : List Char) : List (List Char) :=
  match separator with
  | [] => cs.map ([·])
  | d :: ds => pieces d ds cs

/-- Puts `new` in the place of every occurrence. An empty `old` occurs nowhere, so nothing is
    replaced. -/
def replace (old new cs : List Char) : List Char :=
  match old with
  | [] => cs
  | d :: ds => go d ds [] cs
where
  /- `done` is the result so far, read backwards. -/
  go (d : Char) (ds done : List Char) (cs : List Char) : List Char :=
    match cs with
    | [] => done.reverse
    | c :: rest =>
      match _h : after? (d :: ds) (c :: rest) with
      | some tail => go d ds (new.reverse ++ done) tail
      | none => go d ds (c :: done) rest
  termination_by cs.length
  decreasing_by
    · exact length_after? _h
    · simp

def positions (d : Char) (ds : List Char) (cs : List Char) : List Nat :=
  go 0 cs
where
  go (place : Nat) (cs : List Char) : List Nat :=
    match cs with
    | [] => []
    | c :: rest =>
      match _h : after? (d :: ds) (c :: rest) with
      | some tail => place :: go (place + ds.length + 1) tail
      | none => go (place + 1) rest
  termination_by cs.length
  decreasing_by
    · exact length_after? _h
    · simp

def find? (needle : List Char) (skip : Nat) (cs : List Char) : Option Nat :=
  go skip (cs.drop skip)
where
  go (place : Nat) : List Char → Option Nat
    | [] => if needle.isEmpty then some place else none
    | c :: rest => if (after? needle (c :: rest)).isSome then some place else go (place + 1) rest

end FlowScript.Text
