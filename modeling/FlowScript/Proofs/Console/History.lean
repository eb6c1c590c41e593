import FlowScript.Proofs.Console.Buffering
import FlowScript.Proofs.Text.Lines

/-!
The history between two sessions. It is written with one line break after each input and read line
by line. Main statement: each input comes back as its own lines, trimmed and without the blank ones,
so the history survives exactly if every input in it is one line that starts with no white space.
-/
namespace FlowScript

namespace Console

def entriesOf (lines : List (List Char)) : List String :=
  (lines.map Text.trim).filter (!·.isEmpty) |>.map String.ofList

theorem entriesOf_append (first last : List (List Char)) :
    entriesOf (first ++ last) = entriesOf first ++ entriesOf last := by
  simp [entriesOf]

theorem entriesOf_go_break (line first rest : List Char) :
    entriesOf (Text.lines.go line (first ++ '\n' :: rest)) =
      entriesOf (Text.lines.go line first) ++ entriesOf (Text.lines.go [] rest) := by
  induction first generalizing line with
  | nil =>
    rw [List.nil_append, Text.lines_go_cons, if_pos rfl, ← List.singleton_append, entriesOf_append]
    congr 1
    cases line with
    | nil => rfl
    | cons c more => simp [entriesOf, Text.lines.go, Text.trim_dropReturn]
  | cons c more ih =>
    rw [List.cons_append, Text.lines_go_cons, Text.lines_go_cons]
    split
    · rw [← List.singleton_append, entriesOf_append, ih, ← List.append_assoc, ← entriesOf_append]
      rfl
    · exact ih (c :: line)

theorem readHistory_break (first rest : List Char) :
    readHistory (first ++ '\n' :: rest) = readHistory first ++ readHistory rest :=
  entriesOf_go_break [] first rest

theorem mem_readHistory {cs : List Char} {entry : String} (there : entry ∈ readHistory cs) :
    '\n' ∉ entry.toList ∧ Text.trimStart entry.toList = entry.toList := by
  simp only [readHistory, List.mem_map, List.mem_filter] at there
  obtain ⟨_, ⟨⟨line, member, rfl⟩, _⟩, rfl⟩ := there
  rw [String.toList_ofList]
  refine ⟨?_, Text.trimStart_trim line⟩
  have unbroken := Text.lines_go_unbroken (by simp) cs line member
  exact fun inside => unbroken (Text.mem_of_mem_trim inside)

theorem readHistory_line {entry : String} (unbroken : '\n' ∉ entry.toList)
    (solid : entry.toList ≠ []) (fixed : Text.trim entry.toList = entry.toList) :
    readHistory entry.toList = [entry] := by
  have lines : Text.lines entry.toList = [entry.toList] := by
    have whole := Text.lines_go_of_unbroken unbroken [] []
    rw [List.append_nil, List.append_nil] at whole
    rw [Text.lines, whole]
    simp [Text.lines.go, solid]
  simp [readHistory, lines, fixed, solid]

theorem readHistory_joined (entries : List String) :
    readHistory (joined (entries.map String.toList)) =
      entries.flatMap fun entry => readHistory entry.toList := by
  induction entries with
  | nil => rfl
  | cons entry rest ih =>
    cases rest with
    | nil => rw [List.map_singleton, joined_singleton, List.flatMap_singleton]
    | cons next more =>
      rw [List.flatMap_cons, ← ih, ← readHistory_break, List.map_cons, List.map_cons, joined,
        List.intercalate_cons_cons, List.append_assoc]
      rfl

theorem readHistory_writeHistory (history : List String) :
    readHistory (writeHistory history).toList =
      (trimHistory history).flatMap fun entry => readHistory entry.toList := by
  have whole : ("\n".intercalate (trimHistory history)).toList =
      joined ((trimHistory history).map String.toList) := String.toList_intercalate
  rw [← readHistory_joined, ← whole]
  unfold writeHistory
  extract_lets text
  split
  · rfl
  · -- the last line break ends no further entry
    rw [String.toList_append]
    exact (readHistory_break text.toList []).trans (List.append_nil _)

theorem keptLines_trimmed (s : Session) (lines : List (List Char)) :
    ∀ line ∈ s.keptLines lines, Text.trimEnd line = line := by
  induction lines generalizing s with
  | nil => simp [Session.keptLines]
  | cons raw rest ih =>
    intro line member
    rw [Session.keptLines, List.mem_append] at member
    rcases member with now | later
    · unfold Session.keptLine at now
      split at now
      · cases now
      · rw [List.mem_singleton.mp now]
        exact Text.trimEnd_trimEnd raw
    · exact ih (s.pushLine raw).2 line later

theorem single_of_unbroken {group : List (List Char)} (solid : group ≠ [])
    (unbroken : '\n' ∉ joined group) : ∃ line, group = [line] := by
  obtain ⟨line, others, rfl⟩ := List.exists_cons_of_ne_nil solid
  cases others with
  | nil => exact ⟨line, rfl⟩
  | cons next more =>
    refine absurd ?_ unbroken
    rw [← List.singleton_append, joined_append (by simp) (by simp)]
    simp

/-- An entry is never blank, and if it is one line, white space at its end is gone. -/
theorem entry_of_session {library : Library} {machine : Machine} {lines : List (List Char)}
    {entry : String}
    (member : entry ∈ ((Session.start library machine).pushAll lines).2.history) :
    Text.trim entry.toList ≠ [] ∧
      ('\n' ∉ entry.toList → Text.trimEnd entry.toList = entry.toList) := by
  obtain ⟨groups, rest, _, kept, gathered⟩ := gathered_pushAll library machine lines
  rw [gathered.history] at member
  obtain ⟨g, handed, rfl⟩ := List.mem_map.mp (List.mem_of_mem_drop member)
  rw [String.toList_ofList]
  refine ⟨gathered.visible g handed, ?_⟩
  intro unbroken
  obtain ⟨line, rfl⟩ := single_of_unbroken (gathered.completes g handed).solid unbroken
  rw [joined_singleton]
  refine keptLines_trimmed (Session.start library machine) lines line ?_
  rw [kept, List.mem_append]
  exact Or.inl (List.mem_flatten_of_mem handed (by simp))

theorem trimHistory_of_session (library : Library) (machine : Machine)
    (lines : List (List Char)) :
    trimHistory ((Session.start library machine).pushAll lines).2.history =
      ((Session.start library machine).pushAll lines).2.history := by
  obtain ⟨groups, rest, _, _, gathered⟩ := gathered_pushAll library machine lines
  have short := trimHistory_length (groups.map fun g => String.ofList (joined g))
  rw [← gathered.history] at short
  rw [trimHistory, Nat.sub_eq_zero_of_le (by omega), List.drop_zero]

/-- The history of a new session, written and read back. Each input comes back as its own lines,
    trimmed and without the blank ones. It is the same history exactly if every input is one line
    that starts with no white space. -/
theorem history_survives_line_by_line (library : Library) (machine : Machine)
    (lines : List (List Char)) :
    let history := ((Session.start library machine).pushAll lines).2.history
    readHistory (writeHistory history).toList =
        history.flatMap (fun entry => readHistory entry.toList) ∧
      (readHistory (writeHistory history).toList = history ↔
        ∀ entry ∈ history, '\n' ∉ entry.toList ∧ Text.trimStart entry.toList = entry.toList) := by
  intro history
  have written : readHistory (writeHistory history).toList =
      history.flatMap fun entry => readHistory entry.toList := by
    rw [readHistory_writeHistory, trimHistory_of_session]
  refine ⟨written, ?_, ?_⟩
  · intro same entry member
    rw [← same] at member
    exact mem_readHistory member
  · intro plain
    have alone : ∀ entry ∈ history, readHistory entry.toList = [entry] := by
      intro entry member
      obtain ⟨unbroken, start⟩ := plain entry member
      obtain ⟨visible, settled⟩ := entry_of_session member
      have fixed : Text.trim entry.toList = entry.toList := by
        rw [Text.trim, start, settled unbroken]
      rw [fixed] at visible
      exact readHistory_line unbroken visible fixed
    rw [written, List.flatMap_congr alone, List.flatMap_singleton']

theorem pushLine_recorded (s : Session) (raw source : List Char)
    (typed : Session.extend s.buffer (Text.trimEnd raw) = source)
    (complete : needsMoreInput source = false) (visible : Text.trim source ≠ []) :
    s.pushLine raw = (some source, { s with
      buffer := [], history := trimHistory (s.history ++ [String.ofList source]) }) := by
  have shown : (Text.trim source).isEmpty = false := by rwa [List.isEmpty_eq_false_iff]
  have kept : (s.buffer.isEmpty && (Text.trim (Text.trimEnd raw)).isEmpty) = false := by
    cases start : s.buffer.isEmpty with
    | false => rfl
    | true =>
      rw [Session.extend, if_pos start] at typed
      rw [typed, shown]
      rfl
  simp [Session.pushLine, kept, typed, complete, shown]

/-- An input of two lines comes back as two inputs, and white space at the start is lost. -/
theorem history_breaks_input_of_two_lines :
    readHistory (writeHistory ["x +\ny", "  z"]).toList = ["x +", "y", "z"] ∧
    ∀ library machine, ((Session.start library machine).pushAll
      ["x +".toList, "y".toList, "  z".toList]).2.history = ["x +\ny", "  z"] := by
  constructor
  · with_unfolding_all rfl
  · intro library machine
    have first : (Session.start library machine).pushLine "x +".toList =
        (none, { Session.start library machine with buffer := "x +".toList }) := by
      with_unfolding_all rfl
    have second : needsMoreInput "x +\ny".toList = false := by with_unfolding_all rfl
    have third : needsMoreInput "  z".toList = false := by with_unfolding_all rfl
    simp only [Session.pushAll, first]
    rw [pushLine_recorded _ "y".toList "x +\ny".toList rfl second (by decide),
      pushLine_recorded _ "  z".toList "  z".toList rfl third (by decide)]
    simp [Session.start, trimHistory, historyLimit]

end Console
end FlowScript
