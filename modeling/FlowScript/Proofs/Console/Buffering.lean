import FlowScript.Proofs.Console.HandOver

/-!
The lines of a session and the inputs made of them. Main statement: whatever is typed, no line is
lost or taken twice. The lines fall into groups that follow each other, a group is handed out with
the first line that completes it, and what is left over waits in the buffer.
-/
namespace FlowScript.Console

def joined (lines : List (List Char)) : List Char := List.intercalate ['\n'] lines

@[simp]
theorem joined_nil : joined [] = [] := rfl

@[simp]
theorem joined_singleton (line : List Char) : joined [line] = line := List.intercalate_singleton

theorem joined_append {first last : List (List Char)} (some : first ≠ []) (more : last ≠ []) :
    joined (first ++ last) = joined first ++ '\n' :: joined last := by
  induction first with
  | nil => exact absurd rfl some
  | cons line rest ih =>
    by_cases only : rest = []
    · subst only
      simp [joined, List.intercalate_cons_of_ne_nil more]
    · have longer : rest ++ last ≠ [] := List.append_ne_nil_of_right_ne_nil rest more
      have later := ih only
      unfold joined at later ⊢
      rw [List.cons_append, List.intercalate_cons_of_ne_nil longer, later,
        List.intercalate_cons_of_ne_nil only]
      simp

theorem joined_map_joined {groups : List (List (List Char))} (solid : ∀ g ∈ groups, g ≠ []) :
    joined (groups.map joined) = joined groups.flatten := by
  induction groups with
  | nil => rfl
  | cons g rest ih =>
    rw [List.forall_mem_cons] at solid
    by_cases only : rest = []
    · simp [only]
    · obtain ⟨next, others, rfl⟩ := List.exists_cons_of_ne_nil only
      have flat : (next :: others).flatten ≠ [] := by
        have start : next ≠ [] := solid.2 next (by simp)
        simp [start]
      have apart := joined_append (List.cons_ne_nil (joined g) []) (List.cons_ne_nil (joined next)
        (others.map joined))
      rw [joined_singleton, List.singleton_append] at apart
      rw [List.flatten_cons, joined_append solid.1 flat, ← ih solid.2]
      exact apart

theorem extend_joined {lines : List (List Char)} (started : joined lines = [] → lines = [])
    (line : List Char) : Session.extend (joined lines) line = joined (lines ++ [line]) := by
  unfold Session.extend
  by_cases none : lines = []
  · simp [none]
  · rw [joined_append none (by simp), joined_singleton, if_neg]
    simpa using mt started none

theorem needsMoreInput_blank {cs : List Char} (blank : ∀ c ∈ cs, Text.isBlank c = true) :
    needsMoreInput cs = false := by
  have inert : ∀ c ∈ cs, c ∉ marks := fun c there => not_mem_of_test (by decide) (blank c there)
  have scanned : scan .code .zero cs = (.code, .zero) := by
    rw [← List.append_nil cs, scan_inert_append inert, scan]
  unfold needsMoreInput
  rw [scanned, Text.trimEnd_eq_nil.mpr blank]
  rfl

theorem needsMoreInput_visible {cs : List Char} (more : needsMoreInput cs = true) :
    ∃ c ∈ cs, Text.isBlank c = false := by
  by_contra none
  push Not at none
  rw [needsMoreInput_blank (by simpa using none)] at more
  cases more

namespace Session

/-- What a typed line adds to the lines of the inputs: nothing if it is blank and starts no input,
    and else itself without the white space at its end. -/
def keptLine (s : Session) (raw : List Char) : List (List Char) :=
  if s.buffer = [] ∧ Text.trimEnd raw = [] then [] else [Text.trimEnd raw]

def pushAll (s : Session) : List (List Char) → List (List Char) × Session
  | [] => ([], s)
  | raw :: rest =>
    let (input, next) := s.pushLine raw
    let (inputs, last) := next.pushAll rest
    (input.toList ++ inputs, last)

def keptLines (s : Session) : List (List Char) → List (List Char)
  | [] => []
  | raw :: rest => s.keptLine raw ++ (s.pushLine raw).2.keptLines rest

end Session

variable {lines rest : List (List Char)} {groups : List (List (List Char))} {s : Session}
  {line raw : List Char}

def Waiting (lines : List (List Char)) : Prop :=
  ∀ start, start <+: lines → start ≠ [] → needsMoreInput (joined start) = true

/-- The lines make up an input, and none of its beginnings does. -/
structure Completes (lines : List (List Char)) : Prop where
  solid : lines ≠ []
  complete : needsMoreInput (joined lines) = false
  before : ∀ start, start <+: lines → start ≠ [] → start ≠ lines →
    needsMoreInput (joined start) = true

theorem waiting_nil : Waiting [] := by
  intro start begins some
  exact absurd (List.prefix_nil.mp begins) some

theorem Waiting.visible (waiting : Waiting lines) (some : lines ≠ []) :
    ∃ c ∈ joined lines, Text.isBlank c = false :=
  needsMoreInput_visible (waiting lines List.prefix_rfl some)

theorem Waiting.started (waiting : Waiting lines) (nothing : joined lines = []) : lines = [] := by
  by_contra some
  obtain ⟨c, there, _⟩ := waiting.visible some
  rw [nothing] at there
  cases there

theorem Waiting.concat (waiting : Waiting lines)
    (more : needsMoreInput (joined (lines ++ [line])) = true) : Waiting (lines ++ [line]) := by
  intro start begins some
  rcases List.prefix_concat_iff.mp begins with rfl | shorter
  · exact more
  · exact waiting start shorter some

theorem Waiting.completes (waiting : Waiting lines)
    (complete : needsMoreInput (joined (lines ++ [line])) = false) :
    Completes (lines ++ [line]) := by
  refine ⟨by simp, complete, ?_⟩
  intro start begins some other
  rcases List.prefix_concat_iff.mp begins with same | shorter
  · exact absurd same other
  · exact waiting start shorter some

theorem trimHistory_concat (history : List String) (entry : String) :
    trimHistory (trimHistory history ++ [entry]) = trimHistory (history ++ [entry]) := by
  unfold trimHistory
  rw [← List.drop_append_of_le_length (Nat.sub_le _ _), List.drop_drop]
  have same : history.length - historyLimit +
      (((history ++ [entry]).drop (history.length - historyLimit)).length - historyLimit) =
        (history ++ [entry]).length - historyLimit := by
    rw [List.length_drop, List.length_append, List.length_singleton]
    omega
  rw [same]

theorem trimHistory_length (history : List String) :
    (trimHistory history).length = min historyLimit history.length := by
  rw [trimHistory, List.length_drop]
  omega

/-- The session has handed out the groups, and the rest is in its buffer. -/
structure Gathered (groups : List (List (List Char))) (rest : List (List Char)) (s : Session) :
    Prop where
  completes : ∀ g ∈ groups, Completes g
  visible : ∀ g ∈ groups, Text.trim (joined g) ≠ []
  waiting : Waiting rest
  buffer : s.buffer = joined rest
  history : s.history = trimHistory (groups.map fun g => String.ofList (joined g))

theorem gathered_start (library : Library) (machine : Machine) :
    Gathered [] [] (Session.start library machine) :=
  ⟨by simp, by simp, waiting_nil, rfl, rfl⟩

theorem Waiting.kept (waiting : Waiting rest)
    (kept : ¬ (joined rest = [] ∧ Text.trimEnd raw = [])) :
    Text.trim (joined (rest ++ [Text.trimEnd raw])) ≠ [] := by
  intro nothing
  by_cases none : rest = []
  · subst none
    exact kept ⟨rfl, Text.trim_trimEnd (by simpa using nothing)⟩
  · obtain ⟨c, there, visible⟩ := waiting.visible none
    have blank := Text.blank_of_trim nothing c
    rw [joined_append none (by simp), List.mem_append] at blank
    rw [blank (Or.inl there)] at visible
    cases visible

theorem Gathered.pushLine (gathered : Gathered groups rest s) (raw : List Char) :
    ∃ more later, (s.pushLine raw).1.toList = more.map joined ∧
      rest ++ s.keptLine raw = more.flatten ++ later ∧
      Gathered (groups ++ more) later (s.pushLine raw).2 := by
  obtain ⟨completes, visible, waiting, buffer, history⟩ := gathered
  rcases pushLine_cases s raw with ⟨skipped, eq⟩ | ⟨kept, typed, rfl, taken⟩
  · refine ⟨[], rest, by rw [eq]; rfl, by simp [Session.keptLine, skipped], ?_⟩
    rw [eq, List.append_nil]
    exact ⟨completes, visible, waiting, buffer, history⟩
  · have line : s.keptLine raw = [Text.trimEnd raw] := if_neg kept
    rw [buffer, extend_joined waiting.started] at taken
    rcases taken with ⟨more, eq⟩ | ⟨complete, entries, recorded, eq⟩
    · refine ⟨[], rest ++ [Text.trimEnd raw], by rw [eq]; rfl, by rw [line]; rfl, ?_⟩
      rw [eq, List.append_nil]
      exact ⟨completes, visible, waiting.concat more, rfl, history⟩
    · rw [buffer] at kept
      have solid := waiting.kept kept
      rw [if_neg solid, history, trimHistory_concat] at recorded
      -- the group is complete, and the next one starts with an empty buffer
      refine ⟨[rest ++ [Text.trimEnd raw]], [], by rw [eq]; rfl, by rw [line]; simp, ?_⟩
      rw [eq]
      refine ⟨?_, ?_, waiting_nil, rfl, ?_⟩
      · simpa [or_imp, forall_and] using And.intro completes (waiting.completes complete)
      · simpa [or_imp, forall_and] using And.intro visible solid
      · simpa using recorded

theorem Gathered.pushAll (gathered : Gathered groups rest s) (lines : List (List Char)) :
    ∃ more later, (s.pushAll lines).1 = more.map joined ∧
      rest ++ s.keptLines lines = more.flatten ++ later ∧
      Gathered (groups ++ more) later (s.pushAll lines).2 := by
  induction lines generalizing groups rest s with
  | nil =>
    refine ⟨[], rest, rfl, List.append_nil rest, ?_⟩
    rw [List.append_nil]
    exact gathered
  | cons raw lines ih =>
    obtain ⟨first, between, given, taken, next⟩ := gathered.pushLine raw
    obtain ⟨more, later, inputs, kept, last⟩ := ih next
    refine ⟨first ++ more, later, ?_, ?_, ?_⟩
    · simp only [Session.pushAll, given, inputs, List.map_append]
    · rw [Session.keptLines, ← List.append_assoc, taken, List.append_assoc, kept]
      simp
    · rw [← List.append_assoc]
      exact last

theorem gathered_pushAll (library : Library) (machine : Machine) (lines : List (List Char)) :
    ∃ groups rest, ((Session.start library machine).pushAll lines).1 = groups.map joined ∧
      (Session.start library machine).keptLines lines = groups.flatten ++ rest ∧
      Gathered groups rest ((Session.start library machine).pushAll lines).2 :=
  (gathered_start library machine).pushAll lines

theorem Gathered.joined_eq (gathered : Gathered groups rest s) :
    joined (groups.map joined ++ if joined rest = [] then [] else [joined rest]) =
      joined (groups.flatten ++ rest) := by
  have solid : ∀ g ∈ groups, g ≠ [] := fun g there => (gathered.completes g there).solid
  by_cases none : rest = []
  · simp [none, joined_map_joined solid]
  · have all : ∀ g ∈ groups ++ [rest], g ≠ [] := by
      simpa [or_imp, forall_and] using And.intro solid none
    rw [if_neg (mt gathered.waiting.started none)]
    simpa using joined_map_joined all

/-- What a new session makes of the lines typed into it. Its buffer is empty or waits for more. The
    inputs in order, and the buffer after them, are the lines without the white space at their ends
    and without the blank ones that start no input. The inputs are groups of these lines, each handed
    out as soon as it is complete. The latest inputs are the history. -/
theorem buffering_keeps_every_line (library : Library) (machine : Machine)
    (lines : List (List Char)) :
    let new := Session.start library machine
    let inputs := (new.pushAll lines).1
    let last := (new.pushAll lines).2
    (last.buffer = [] ∨ needsMoreInput last.buffer = true) ∧
      joined (inputs ++ if last.buffer = [] then [] else [last.buffer]) =
        joined (new.keptLines lines) ∧
      (∃ (groups : List (List (List Char))) (rest : List (List Char)),
        new.keptLines lines = groups.flatten ++ rest ∧ inputs = groups.map joined ∧
          last.buffer = joined rest ∧ ∀ g ∈ groups, Completes g) ∧
      last.history <:+ inputs.map String.ofList ∧
      last.history.length = min 500 inputs.length := by
  intro new inputs last
  obtain ⟨groups, rest, (given : inputs = _), (kept : new.keptLines lines = _), gathered⟩ :=
    gathered_pushAll library machine lines
  have buffer : last.buffer = joined rest := gathered.buffer
  have history : last.history = trimHistory (inputs.map String.ofList) := by
    rw [given, List.map_map]
    exact gathered.history
  refine ⟨?_, ?_, ⟨groups, rest, kept, given, buffer, gathered.completes⟩, ?_, ?_⟩
  · rw [buffer]
    by_cases none : rest = []
    · exact Or.inl (congrArg joined none)
    · exact Or.inr (gathered.waiting rest List.prefix_rfl none)
  · rw [given, kept, buffer]
    exact gathered.joined_eq
  · rw [history]
    exact List.drop_suffix _ _
  · rw [history, trimHistory_length, List.length_map]
    rfl

end FlowScript.Console
