import FlowScript.Proofs.Text.Blank
import FlowScript.Text.Position

/-!
The lines that a text falls into, and positions in them. Main statements: every character that is no
line break stands in a line of the text, and its position gives the number of the line and the
column in it.
-/
namespace FlowScript

namespace Position

variable {cs : List Char}

theorem line_after (p : Position) (cs : List Char) :
    (p.after cs).line = p.line + cs.count '\n' := by
  induction cs generalizing p with
  | nil => rfl
  | cons c rest ih =>
    change ((p.step c).after rest).line = _
    rw [ih, step, List.count_cons]
    split
    · rename_i feed
      simp [feed]
      omega
    · rename_i other
      simp [other]

theorem after_unbroken (unbroken : '\n' ∉ cs) (p : Position) :
    p.after cs = ⟨p.line, p.column + cs.length⟩ := by
  induction cs generalizing p with
  | nil => rfl
  | cons c rest ih =>
    rw [List.mem_cons, not_or] at unbroken
    change (p.step c).after rest = _
    rw [ih unbroken.2, step, if_neg (Ne.symm unbroken.1), List.length_cons]
    simp only [Position.mk.injEq, true_and]
    omega

theorem column_after_feed (p : Position) (cs : List Char) : (p.after (cs ++ ['\n'])).column = 1 := by
  rw [after_append]
  rfl

end Position

namespace Text

variable {c : Char} {cs before line after : List Char}

theorem lines_go_cons (line : List Char) (c : Char) (rest : List Char) :
    lines.go line (c :: rest) =
      if c = '\n' then (lines.dropReturn line).reverse :: lines.go [] rest
      else lines.go (c :: line) rest := rfl

theorem trim_dropReturn (line : List Char) :
    trim (lines.dropReturn line).reverse = trim line.reverse := by
  cases line with
  | nil => rfl
  | cons c rest =>
    by_cases mark : c = '\r'
    · subst mark
      rw [List.reverse_cons, trim_concat_blank (by decide)]
      rfl
    · simp [lines.dropReturn, mark]

theorem mem_dropReturn {line : List Char} (there : c ∈ lines.dropReturn line) : c ∈ line := by
  cases line with
  | nil => exact there
  | cons d rest =>
    change c ∈ if d = '\r' then rest else d :: rest at there
    split at there
    · exact List.mem_cons_of_mem d there
    · exact there

theorem lines_go_unbroken {line : List Char} (start : '\n' ∉ line) (cs : List Char) :
    ∀ l ∈ lines.go line cs, '\n' ∉ l := by
  induction cs generalizing line with
  | nil =>
    unfold lines.go
    split <;> simp [start]
  | cons c rest ih =>
    rw [lines_go_cons]
    split
    · rw [List.forall_mem_cons]
      refine ⟨?_, ih (by simp)⟩
      rw [List.mem_reverse]
      exact fun there => start (mem_dropReturn there)
    · rename_i other
      refine ih ?_
      rw [List.mem_cons, not_or]
      exact ⟨Ne.symm other, start⟩

theorem lines_go_of_unbroken (unbroken : '\n' ∉ cs) (line rest : List Char) :
    lines.go line (cs ++ rest) = lines.go (cs.reverse ++ line) rest := by
  induction cs generalizing line with
  | nil => rfl
  | cons c more ih =>
    rw [List.mem_cons, not_or] at unbroken
    rw [List.cons_append, lines_go_cons, if_neg (Ne.symm unbroken.1), ih unbroken.2,
      List.reverse_cons, List.append_assoc, List.singleton_append]

/-- What may follow a line: nothing, or a line feed, with at most one return before it. -/
inductive Ends (line : List Char) : List Char → Prop
  | last : Ends line []
  | feed {rest : List Char} (plain : line.getLast? ≠ some '\r') : Ends line ('\n' :: rest)
  | returned {rest : List Char} : Ends line ('\r' :: '\n' :: rest)

/-- `line` is a line of the text `before ++ line ++ after`, without the break that ends it. -/
structure IsLine (before line after : List Char) : Prop where
  starts : before = [] ∨ before.getLast? = some '\n'
  unbroken : '\n' ∉ line
  ends : Ends line after

theorem dropReturn_reverse (plain : cs.getLast? ≠ some '\r') :
    (lines.dropReturn cs.reverse).reverse = cs := by
  cases back : cs.reverse with
  | nil => rw [List.reverse_eq_nil_iff.mp back]; rfl
  | cons c rest =>
    have other : c ≠ '\r' := by
      rintro rfl
      rw [← List.head?_reverse, back] at plain
      exact plain rfl
    rw [lines.dropReturn, if_neg other, ← back, List.reverse_reverse]

theorem lines_go_drop (ended : before.getLast? = some '\n') (line rest : List Char) :
    (lines.go line (before ++ rest)).drop (before.count '\n') = lines.go [] rest := by
  induction before generalizing line with
  | nil => cases ended
  | cons c more ih =>
    rw [List.cons_append, lines_go_cons]
    by_cases feed : c = '\n'
    · subst feed
      rw [if_pos rfl, List.count_cons_self, List.drop_succ_cons]
      cases more with
      | nil => rfl
      | cons d others => exact ih (by simpa using ended) []
    · rw [if_neg feed, List.count_cons_of_ne feed]
      cases more with
      | nil => exact absurd (by simpa using ended) feed
      | cons d others => exact ih (by simpa using ended) (c :: line)

theorem head?_lines_go (solid : line ≠ []) (unbroken : '\n' ∉ line) (ends : Ends line after) :
    (lines.go [] (line ++ after)).head? = some line := by
  rw [lines_go_of_unbroken unbroken, List.append_nil]
  cases ends with
  | last => simp [lines.go, solid]
  | feed plain => rw [lines_go_cons, if_pos rfl, dropReturn_reverse plain]; rfl
  | returned =>
    rw [lines_go_cons, if_neg (by decide), lines_go_cons, if_pos rfl]
    simp [lines.dropReturn]

/-- A line is found under the number of line breaks before it. -/
theorem IsLine.get (found : IsLine before line after) (solid : line ≠ []) :
    (lines (before ++ (line ++ after)))[before.count '\n']? = some line := by
  have first := head?_lines_go solid found.unbroken found.ends
  rcases found.starts with rfl | ended
  · rw [← first, List.head?_eq_getElem?]
    rfl
  · rw [lines, ← List.head?_drop, lines_go_drop ended, first]

theorem IsLine.position (found : IsLine before line after) (left : List Char)
    (inside : left <+: line) :
    Position.start.after (before ++ left) = ⟨before.count '\n' + 1, left.length + 1⟩ := by
  have unbroken : '\n' ∉ left := fun there => found.unbroken (inside.subset there)
  have column : (Position.start.after before).column = 1 := by
    rcases found.starts with rfl | ended
    · rfl
    · obtain ⟨more, rfl⟩ := List.getLast?_eq_some_iff.mp ended
      exact Position.column_after_feed _ more
  rw [Position.after_append, Position.after_unbroken unbroken, Position.line_after, column,
    Nat.add_comm 1 left.length]
  change Position.mk (1 + _) _ = _
  rw [Nat.add_comm]

theorem exists_start (front : List Char) : ∃ before left, front = before ++ left ∧
    (before = [] ∨ before.getLast? = some '\n') ∧ '\n' ∉ left := by
  refine ⟨front.rdropWhile (· != '\n'), front.rtakeWhile (· != '\n'), ?_, ?_, ?_⟩
  · rw [List.rdropWhile_append_rtakeWhile]
  · by_cases nothing : front.rdropWhile (· != '\n') = []
    · exact Or.inl nothing
    · have last := List.rdropWhile_last_not (· != '\n') front nothing
      refine Or.inr ?_
      rw [List.getLast?_eq_some_getLast nothing]
      simpa using last
  · intro feed
    exact absurd (List.mem_rtakeWhile_imp feed) (by decide)

theorem exists_end (other : c ≠ '\r') (back : List Char) : ∃ right after, back = right ++ after ∧
    '\n' ∉ right ∧ ∀ left, Ends (left ++ c :: right) after := by
  have split := (List.takeWhile_append_dropWhile (p := (· != '\n')) (l := back)).symm
  have free : '\n' ∉ back.takeWhile (· != '\n') :=
    fun feed => absurd (List.mem_takeWhile_imp feed) (by decide)
  have stopped := List.head?_dropWhile_not (· != '\n') back
  generalize back.takeWhile (· != '\n') = body at split free
  generalize back.dropWhile (· != '\n') = tail at split stopped
  cases tail with
  | nil => exact ⟨body, [], split, free, fun _ => .last⟩
  | cons d rest =>
    obtain rfl : d = '\n' := by simpa using stopped
    by_cases returned : body.getLast? = some '\r'
    · -- the return belongs to the break
      obtain ⟨right, rfl⟩ := List.getLast?_eq_some_iff.mp returned
      refine ⟨right, '\r' :: '\n' :: rest, by simp [split], ?_, fun _ => .returned⟩
      exact fun feed => free (by simp [feed])
    · refine ⟨body, '\n' :: rest, split, free, fun left => .feed ?_⟩
      rw [List.getLast?_append_of_ne_nil _ (List.cons_ne_nil c body), List.getLast?_cons]
      cases last : body.getLast? with
      | none => simpa using other
      | some d => simpa [last] using returned

theorem exists_line {text : List Char} {o : Nat} (there : text[o]? = some c) (feed : c ≠ '\n')
    (returned : c ≠ '\r') : ∃ before left right after,
      text = before ++ ((left ++ c :: right) ++ after) ∧ o = before.length + left.length ∧
      IsLine before (left ++ c :: right) after := by
  obtain ⟨inside, here⟩ := List.getElem?_eq_some_iff.mp there
  have split : text = text.take o ++ c :: text.drop (o + 1) := by
    rw [← here, List.getElem_cons_drop, List.take_append_drop]
  obtain ⟨before, left, front, starts, free⟩ := exists_start (text.take o)
  obtain ⟨right, after, back, free', ends⟩ := exists_end returned (text.drop (o + 1))
  refine ⟨before, left, right, after, ?_, ?_, starts, ?_, ends left⟩
  · rw [front, back] at split
    simpa using split
  · have size := congrArg List.length front
    rw [List.length_take, List.length_append] at size
    omega
  · simp [free, free', Ne.symm feed]

end Text
end FlowScript
