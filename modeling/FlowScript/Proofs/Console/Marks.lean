import FlowScript.Console.Color
import FlowScript.Text.Occurrence

/-!
Coloured texts as a terminal takes them: marks and the characters between them. Main statement:
without its marks a coloured text is the text itself, and its marks are a colour and a reset in
turn.
-/
namespace FlowScript.Console

inductive Mark where
  | color (c : Color)
  | reset
  deriving DecidableEq, Repr

def Mark.chars : Mark → List Char
  | color c => c.mark
  | reset => resetMark

def Mark.all : List Mark :=
  [.color .keyword, .color .text, .color .number, .color .comment, .color .global, .reset]

/-- What a terminal meets in a text: a mark, or a character to show. -/
inductive Glyph where
  | mark (m : Mark)
  | char (c : Char)
  deriving DecidableEq, Repr

def Glyph.mark? : Glyph → Option Mark
  | mark m => some m
  | char _ => none

def Glyph.char? : Glyph → Option Char
  | mark _ => none
  | char c => some c

def leadingMark? (cs : List Char) : Option (Mark × List Char) :=
  Mark.all.findSome? fun m => (Text.after? m.chars cs).map fun rest => (m, rest)

theorem leadingMark?_shorter {cs rest : List Char} {m : Mark}
    (found : leadingMark? cs = some (m, rest)) : rest.length < cs.length := by
  obtain ⟨n, _, here⟩ := List.exists_of_findSome?_eq_some found
  obtain ⟨tail, after, same⟩ := Option.map_eq_some_iff.mp here
  cases same
  rw [Text.after?_eq_some.mp after, List.length_append]
  have some_char : 0 < m.chars.length := by
    cases m with
    | color c => cases c <;> decide
    | reset => decide
  omega

def glyphs (cs : List Char) : List Glyph :=
  match cs with
  | [] => []
  | c :: rest =>
    match _h : leadingMark? (c :: rest) with
    | some (m, tail) => .mark m :: glyphs tail
    | none => .char c :: glyphs rest
termination_by cs.length
decreasing_by
  · exact leadingMark?_shorter _h
  · simp

def withoutMarks (cs : List Char) : List Char := (glyphs cs).filterMap Glyph.char?

def onlyMarks (cs : List Char) : List Mark := (glyphs cs).filterMap Glyph.mark?

/-- Colours and resets take turns; the first mark is a colour and the last a reset. -/
inductive Alternate : List Mark → Prop
  | nil : Alternate []
  | pair (c : Color) {rest : List Mark} (later : Alternate rest) :
      Alternate (.color c :: .reset :: rest)

def escape : Char := '\x1b'

variable {cs : List Char}

theorem leadingMark?_mark (m : Mark) (rest : List Char) :
    leadingMark? (m.chars ++ rest) = some (m, rest) := by
  cases m with
  | color c => cases c <;> rfl
  | reset => rfl

theorem leadingMark?_plain {c : Char} (plain : c ≠ escape) (rest : List Char) :
    leadingMark? (c :: rest) = none := by
  rw [leadingMark?, List.findSome?_eq_none_iff]
  intro m _
  obtain ⟨more, starts⟩ : ∃ more, m.chars = escape :: more := by
    cases m with
    | color c => cases c <;> exact ⟨_, rfl⟩
    | reset => exact ⟨_, rfl⟩
  rw [starts, Text.after?, if_neg (Ne.symm plain), Option.map_none]

theorem glyphs_cons (c : Char) (rest : List Char) :
    glyphs (c :: rest) =
      match leadingMark? (c :: rest) with
      | some (m, tail) => .mark m :: glyphs tail
      | none => .char c :: glyphs rest := by
  rw [glyphs]
  split
  · rename_i found
    rw [found]
  · rename_i none
    rw [none]

theorem glyphs_mark (m : Mark) (rest : List Char) :
    glyphs (m.chars ++ rest) = .mark m :: glyphs rest := by
  have found := leadingMark?_mark m rest
  cases written : m.chars ++ rest with
  | nil =>
    rw [written] at found
    cases found
  | cons c more =>
    rw [written] at found
    rw [glyphs_cons, found]

theorem glyphs_plain (plain : escape ∉ cs) (rest : List Char) :
    glyphs (cs ++ rest) = cs.map .char ++ glyphs rest := by
  induction cs with
  | nil => rfl
  | cons c more ih =>
    rw [List.mem_cons, not_or] at plain
    rw [List.cons_append, glyphs_cons, leadingMark?_plain (Ne.symm plain.1)]
    simp [ih plain.2]

def Segment.glyphs (s : Segment) : List Glyph :=
  match s.color with
  | some color => .mark (.color color) :: s.chars.map .char ++ [.mark .reset]
  | none => s.chars.map .char

theorem glyphs_render {s : Segment} (plain : escape ∉ s.chars) (rest : List Char) :
    glyphs (s.render ++ rest) = s.glyphs ++ glyphs rest := by
  obtain ⟨color, chars⟩ := s
  cases color with
  | none => exact glyphs_plain plain rest
  | some color =>
    change glyphs ((Mark.color color).chars ++ chars ++ Mark.reset.chars ++ rest) = _
    rw [List.append_assoc, List.append_assoc, glyphs_mark, glyphs_plain plain, glyphs_mark]
    simp [Segment.glyphs]

theorem glyphs_renderAll {parts : List Segment} (plain : ∀ s ∈ parts, escape ∉ s.chars) :
    glyphs (parts.flatMap Segment.render) = parts.flatMap Segment.glyphs := by
  induction parts with
  | nil => rw [List.flatMap_nil, glyphs]; rfl
  | cons s rest ih =>
    rw [List.forall_mem_cons] at plain
    rw [List.flatMap_cons, List.flatMap_cons, glyphs_render plain.1, ih plain.2]

theorem chars_of_segment (s : Segment) : s.glyphs.filterMap Glyph.char? = s.chars := by
  have plain (cs : List Char) : (cs.map Glyph.char).filterMap Glyph.char? = cs := by
    rw [List.filterMap_map]
    exact List.filterMap_some
  unfold Segment.glyphs
  cases s.color with
  | none => exact plain s.chars
  | some color =>
    dsimp only
    rw [List.cons_append, List.filterMap_cons_none rfl, List.filterMap_append, plain]
    exact List.append_nil _

theorem marks_of_segment (s : Segment) :
    s.glyphs.filterMap Glyph.mark? =
      match s.color with
      | some color => [.color color, .reset]
      | none => [] := by
  have plain (cs : List Char) : (cs.map Glyph.char).filterMap Glyph.mark? = [] := by
    simp [Glyph.mark?]
  unfold Segment.glyphs
  cases s.color with
  | none => exact plain s.chars
  | some color => simp [plain, Glyph.mark?]

theorem alternate_marks (parts : List Segment) :
    Alternate ((parts.flatMap Segment.glyphs).filterMap Glyph.mark?) := by
  induction parts with
  | nil => exact .nil
  | cons s rest ih =>
    rw [List.flatMap_cons, List.filterMap_append, marks_of_segment]
    cases s.color with
    | none => exact ih
    | some color => exact .pair color ih

/-- The turns of the loop on a text. Each cuts a segment off the front, until nothing is left. -/
inductive Turns : List Char → List Segment → Prop
  | done : Turns [] []
  | next {c : Char} {cs : List Char} {parts : List Segment}
      (later : Turns (segment c cs).2 parts) : Turns (c :: cs) ((segment c cs).1 :: parts)

theorem turns_segments (cs : List Char) : Turns cs (segments cs) := by
  fun_induction segments cs with
  | case1 => exact .done
  | case2 c rest ih => exact .next ih

theorem Turns.unique {parts others : List Segment} (turns : Turns cs parts)
    (again : Turns cs others) : parts = others := by
  induction turns generalizing others with
  | done =>
    cases again
    rfl
  | next _ ih =>
    cases again with
    | next later => rw [ih later]

theorem Turns.joined {parts : List Segment} (turns : Turns cs parts) :
    parts.flatMap Segment.chars = cs := by
  induction turns with
  | done => rfl
  | @next c rest parts _ ih => rw [List.flatMap_cons, ih, segment_append]

theorem Turns.count {parts : List Segment} (turns : Turns cs parts) :
    parts.length ≤ cs.length := by
  induction turns with
  | done => exact Nat.le_refl _
  | @next c rest parts _ ih =>
    have shorter := segment_shorter c rest
    rw [List.length_cons]
    omega

/-- Colouring only adds marks. On every text the loop comes to an end, after at most as many turns
    as there are characters. If the text has no escape character, it is the coloured text without
    the marks, and the marks are a colour and a reset in turn, so that no colour is left open and
    none begins inside of another. -/
theorem coloring_only_adds_marks (cs : List Char) :
    (∃ parts, Turns cs parts ∧ (∀ others, Turns cs others → others = parts) ∧
      parts.length ≤ cs.length ∧ colorize cs = parts.flatMap Segment.render) ∧
    (escape ∉ cs → withoutMarks (colorize cs) = cs ∧ Alternate (onlyMarks (colorize cs))) := by
  have turns := turns_segments cs
  refine ⟨⟨segments cs, turns, fun _ again => again.unique turns, turns.count, rfl⟩, ?_⟩
  intro plain
  have parts_plain : ∀ s ∈ segments cs, escape ∉ s.chars := by
    intro s listed inside
    rw [← turns.joined] at plain
    exact plain (List.mem_flatMap_of_mem listed inside)
  have apart : glyphs (colorize cs) = (segments cs).flatMap Segment.glyphs :=
    glyphs_renderAll parts_plain
  refine ⟨?_, ?_⟩
  · rw [withoutMarks, apart, List.filterMap_flatMap]
    simp only [chars_of_segment]
    exact turns.joined
  · rw [onlyMarks, apart]
    exact alternate_marks (segments cs)

theorem coloring_only_adds_marks_unclosed :
    escape ∉ "If(1, 'a\\".toList ∧
      withoutMarks (colorize "If(1, 'a\\".toList) = "If(1, 'a\\".toList ∧
      Alternate (onlyMarks (colorize "If(1, 'a\\".toList)) := by
  have plain : escape ∉ "If(1, 'a\\".toList := by decide
  exact ⟨plain, (coloring_only_adds_marks _).2 plain⟩

end FlowScript.Console
