import FlowScript.Proofs.Lexer.Layout
import FlowScript.Proofs.Parser.Viable
import FlowScript.Proofs.Text.Lines
import FlowScript.Script

/-!
Where a script that cannot be read is shown to be wrong. The culprit is found by places in the text
alone, without lines and columns. Main statement: the line shown is the one with the culprit in it,
and the mark below the line stands under the culprit's first character.
-/
namespace FlowScript

open Token (Kind)

namespace Lexer

variable {text : List Char} {k o : Nat} {found : List (Nat × Kind)}

/-- The way from one place of a text to another, munch by munch, with the tokens on it and the
    places where they begin. -/
inductive Munched (text : List Char) : Nat → List (Nat × Kind) → Nat → Prop
  | here (k : Nat) : Munched text k [] k
  | token {k o : Nat} {c : Char} {cs lexeme tail : List Char} {kind : Kind}
      {found : List (Nat × Kind)} (ahead : text.drop k = c :: cs)
      (taken : munch c cs = .token kind lexeme tail)
      (later : Munched text (k + lexeme.length) found o) : Munched text k ((k, kind) :: found) o
  | skip {k o : Nat} {c : Char} {cs lexeme tail : List Char} {found : List (Nat × Kind)}
      (ahead : text.drop k = c :: cs) (taken : munch c cs = .skip lexeme tail)
      (later : Munched text (k + lexeme.length) found o) : Munched text k found o

/-- No munch goes on from the place. -/
def Stopped (text : List Char) (o : Nat) : Prop :=
  ∀ c cs, text.drop o = c :: cs → ∃ cause, munch c cs = .fault cause

theorem stopped_length (text : List Char) : Stopped text text.length := by
  intro c cs ahead
  rw [List.drop_length] at ahead
  cases ahead

theorem stopped_of_fault {c : Char} {cs : List Char} {cause : Fault}
    (ahead : text.drop o = c :: cs) (fault : munch c cs = .fault cause) : Stopped text o := by
  intro d ds again
  cases ahead.symm.trans again
  exact ⟨cause, fault⟩

theorem Munched.unique {found' : List (Nat × Kind)} {o' : Nat} (way : Munched text k found o)
    (stopped : Stopped text o) (way' : Munched text k found' o') (stopped' : Stopped text o') :
    found = found' ∧ o = o' := by
  induction way generalizing found' with
  | here k =>
    cases way' with
    | here => exact ⟨rfl, rfl⟩
    | token ahead taken _ =>
      obtain ⟨cause, fault⟩ := stopped _ _ ahead
      cases taken.symm.trans fault
    | skip ahead taken _ =>
      obtain ⟨cause, fault⟩ := stopped _ _ ahead
      cases taken.symm.trans fault
  | token ahead taken _ ih =>
    cases way' with
    | here =>
      obtain ⟨cause, fault⟩ := stopped' _ _ ahead
      cases taken.symm.trans fault
    | token ahead' taken' later' =>
      cases ahead.symm.trans ahead'
      cases taken.symm.trans taken'
      obtain ⟨rfl, same⟩ := ih stopped later'
      exact ⟨rfl, same⟩
    | skip ahead' taken' _ =>
      cases ahead.symm.trans ahead'
      cases taken.symm.trans taken'
  | skip ahead taken _ ih =>
    cases way' with
    | here =>
      obtain ⟨cause, fault⟩ := stopped' _ _ ahead
      cases taken.symm.trans fault
    | token ahead' taken' _ =>
      cases ahead.symm.trans ahead'
      cases taken.symm.trans taken'
    | skip ahead' taken' later' =>
      cases ahead.symm.trans ahead'
      cases taken.symm.trans taken'
      exact ih stopped later'

theorem visible_of_token {c : Char} {cs lexeme tail : List Char} {kind : Kind}
    (taken : munch c cs = .token kind lexeme tail) : isSpace c = false := by
  rw [Bool.eq_false_iff]
  intro space
  simp [munch, space] at taken

/-- A character that is not white space stands at the place. -/
def Visible (text : List Char) (o : Nat) : Prop := ∃ c, text[o]? = some c ∧ isSpace c = false

theorem visible_of_ahead {c : Char} {cs : List Char} (ahead : text.drop o = c :: cs)
    (visible : isSpace c = false) : Visible text o := by
  refine ⟨c, ?_, visible⟩
  rw [← List.head?_drop, ahead]
  rfl

theorem Munched.visible (way : Munched text k found o) : ∀ q ∈ found, Visible text q.1 := by
  induction way with
  | here k => simp
  | token ahead taken _ ih =>
    exact List.forall_mem_cons.mpr ⟨visible_of_ahead ahead (visible_of_token taken), ih⟩
  | skip _ _ _ ih => exact ih

def placed (text : List Char) (q : Nat × Kind) : Position × Kind :=
  (Position.start.after (text.take q.1), q.2)

/-- Reading a text goes its way munch by munch, to the end or to the munch that fails. -/
def Course (text : List Char) (k : Nat) : Except Failure Output → Prop
  | .ok out => ∃ found, Munched text k found text.length ∧
      out.tokens.map (fun t => (t.position, t.kind)) = found.map (placed text)
  | .error failure => ∃ found o c rest, Munched text k found o ∧ text.drop o = c :: rest ∧
      munch c rest = .fault failure.fault ∧ failure.position = Position.start.after (text.take o)

theorem Course.token {r : Except Failure Output} {c : Char} {cs lexeme tail : List Char}
    {kind : Kind} (ahead : text.drop k = c :: cs) (taken : munch c cs = .token kind lexeme tail)
    (later : Course text (k + lexeme.length) r) :
    Course text k (r.map (.add ⟨kind, lexeme, Position.start.after (text.take k)⟩)) := by
  cases r with
  | ok out =>
    obtain ⟨found, way, listed⟩ := later
    refine ⟨(k, kind) :: found, .token ahead taken way, ?_⟩
    exact congrArg (placed text (k, kind) :: ·) listed
  | error failure =>
    obtain ⟨found, o, d, rest, way, failed⟩ := later
    exact ⟨_, o, d, rest, .token ahead taken way, failed⟩

theorem Course.skip {r : Except Failure Output} {c : Char} {cs lexeme tail : List Char}
    (ahead : text.drop k = c :: cs) (taken : munch c cs = .skip lexeme tail)
    (later : Course text (k + lexeme.length) r) : Course text k r := by
  cases r with
  | ok out =>
    obtain ⟨found, way, listed⟩ := later
    exact ⟨found, .skip ahead taken way, listed⟩
  | error failure =>
    obtain ⟨found, o, d, rest, way, failed⟩ := later
    exact ⟨found, o, d, rest, .skip ahead taken way, failed⟩

theorem tokens_course (text : List Char) (k : Nat) (inside : k ≤ text.length) :
    Course text k (tokens (Position.start.after (text.take k)) (text.drop k)) := by
  induction h : text.length - k using Nat.strongRecOn generalizing k with
  | ind n ih =>
    cases left : text.drop k with
    | nil =>
      have last : k = text.length := by
        rw [List.drop_eq_nil_iff] at left
        omega
      subst last
      rw [tokens_nil]
      exact ⟨[], .here _, rfl⟩
    | cons c cs =>
      have later (lexeme tail : List Char) (whole : (munch c cs).whole = some (lexeme, tail)) :
          Course text (k + lexeme.length)
            (tokens ((Position.start.after (text.take k)).after lexeme) tail) := by
        have split : lexeme ++ tail = text.drop k := (munch_append whole).trans left.symm
        have some_char := List.length_pos_iff.mpr (munch_nonempty whole)
        have further := split_inside split inside
        rw [split_position split, split_tail split]
        exact ih (text.length - (k + lexeme.length)) (by omega) _ further rfl
      rw [tokens_cons]
      cases taken : munch c cs with
      | fault cause => exact ⟨[], k, c, cs, .here k, left, taken, rfl⟩
      | token kind lexeme tail => exact (later lexeme tail (by rw [taken]; rfl)).token left taken
      | skip lexeme tail => exact (later lexeme tail (by rw [taken]; rfl)).skip left taken

theorem munch_ne_unclosedBlock (c : Char) (cs : List Char) : munch c cs ≠ .fault .unclosedBlock := by
  have symbol (c : Char) (cs : List Char) : munchSymbol c cs ≠ .fault .unclosedBlock := by
    unfold munchSymbol munchChar
    repeat' split
    all_goals simp
  unfold munch munchSlash munchComment munchText munchGlobal munchNumber munchName
  repeat' split
  all_goals first | exact symbol _ _ | simp

theorem Visible.of_block {source : List Char} (done : isolateBlock source = .ok text)
    (visible : Visible text o) : Visible source o := by
  obtain ⟨c, there, seen⟩ := visible
  have inside := inside_of_visible done there seen
  exact ⟨c, by rw [← isolateBlock_inside done inside.1 inside.2, there], seen⟩

/-- The first opening tag stands at the place, and no closing tag after it. -/
structure Unclosed (source : List Char) (o : Nat) : Prop where
  opens : openingTag <+: (source.map Char.toLower).drop o
  first : ∀ i < o, ¬ openingTag <+: (source.map Char.toLower).drop i
  unclosed : ∀ i, o + openingTag.length ≤ i → ¬ closingTag <+: (source.map Char.toLower).drop i

theorem Unclosed.unique {source : List Char} {o' : Nat} (tag : Unclosed source o)
    (tag' : Unclosed source o') : o = o' := by
  rcases Nat.lt_trichotomy o o' with before | same | after
  · exact absurd tag.opens (tag'.first o before)
  · exact same
  · exact absurd tag'.opens (tag.first o' after)

theorem Unclosed.visible {source : List Char} (tag : Unclosed source o) : Visible source o := by
  obtain ⟨rest, spelled⟩ := tag.opens
  have first : (source.map Char.toLower)[o]? = some '<' := by
    rw [← List.head?_drop, ← spelled]
    rfl
  rw [List.getElem?_map, Option.map_eq_some_iff] at first
  obtain ⟨c, there, lower⟩ := first
  refine ⟨c, there, ?_⟩
  rw [Bool.eq_false_iff]
  intro space
  simp only [isSpace, Bool.or_eq_true, beq_iff_eq] at space
  rcases space with ((rfl | rfl) | rfl) | rfl <;> exact absurd lower (by decide)

end Lexer

namespace ScriptError

def position? : ScriptError → Option Position
  | lex failure => some failure.position
  | parse failure => some failure.position
  | run _ => none

end ScriptError

namespace Script

open Lexer (Munched Unclosed Visible isolateBlock munch placed)

variable {source : List Char} {e : ScriptError}

/-- The place where that begins which a script fails at; none for its end. -/
inductive Culprit (source : List Char) : ScriptError → Option Nat → Prop
  | tag {failure : Lexer.Failure} {o : Nat} (fault : failure.fault = .unclosedBlock)
      (tag : Unclosed source o) : Culprit source (.lex failure) (some o)
  | unreadable {failure : Lexer.Failure} {o : Nat} {text rest : List Char} {c : Char}
      {found : List (Nat × Kind)} (isolated : isolateBlock source = .ok text)
      (way : Munched text 0 found o) (ahead : text.drop o = c :: rest)
      (fault : munch c rest = .fault failure.fault) : Culprit source (.lex failure) (some o)
  | misplaced {failure : Parser.Failure} {o : Nat} {text : List Char} {kind : Kind}
      {before after : List (Nat × Kind)} (isolated : isolateBlock source = .ok text)
      (way : Munched text 0 (before ++ (o, kind) :: after) text.length)
      (mismatch : Parser.program ((before ++ (o, kind) :: after).map (·.2)) =
        .error ⟨failure.expected, kind :: after.map (·.2)⟩) :
      Culprit source (.parse failure) (some o)
  | ended {failure : Parser.Failure} {text : List Char} {found : List (Nat × Kind)}
      (isolated : isolateBlock source = .ok text) (way : Munched text 0 found text.length)
      (mismatch : Parser.program (found.map (·.2)) = .error ⟨failure.expected, []⟩) :
      Culprit source (.parse failure) none

theorem way_unique {text text' : List Char} {found found' : List (Nat × Kind)}
    (isolated : isolateBlock source = .ok text) (way : Munched text 0 found text.length)
    (isolated' : isolateBlock source = .ok text') (way' : Munched text' 0 found' text'.length) :
    found = found' := by
  cases isolated.symm.trans isolated'
  exact (way.unique (Lexer.stopped_length text) way' (Lexer.stopped_length text)).1

theorem Culprit.unique {a b : Option Nat} (culprit : Culprit source e a)
    (other : Culprit source e b) : a = b := by
  cases culprit with
  | tag fault tag =>
    cases other with
    | tag _ tag' => rw [tag.unique tag']
    | unreadable _ _ _ fault' => exact absurd (fault ▸ fault') (Lexer.munch_ne_unclosedBlock _ _)
  | unreadable isolated way ahead fault =>
    cases other with
    | tag fault' _ => exact absurd (fault' ▸ fault) (Lexer.munch_ne_unclosedBlock _ _)
    | unreadable isolated' way' ahead' fault' =>
      cases isolated.symm.trans isolated'
      rw [(way.unique (Lexer.stopped_of_fault ahead fault) way'
        (Lexer.stopped_of_fault ahead' fault')).2]
  | misplaced isolated way mismatch =>
    cases other with
    | misplaced isolated' way' mismatch' =>
      have same := way_unique isolated way isolated' way'
      rw [same, mismatch'] at mismatch
      simp only [Except.error.injEq, Parser.Mismatch.mk.injEq, List.cons.injEq] at mismatch
      have size := congrArg List.length mismatch.2.2
      rw [List.length_map, List.length_map] at size
      have parts := List.append_inj' same (by simp [size])
      simp only [List.cons.injEq, Prod.mk.injEq] at parts
      rw [parts.2.1.1]
    | ended isolated' way' mismatch' =>
      rw [way_unique isolated way isolated' way', mismatch'] at mismatch
      cases mismatch
  | ended isolated way mismatch =>
    cases other with
    | misplaced isolated' way' mismatch' =>
      rw [way_unique isolated way isolated' way', mismatch'] at mismatch
      cases mismatch
    | ended => rfl

def Reported (source : List Char) (e : ScriptError) : Prop :=
  Culprit source e none ∨ ∃ o, Culprit source e (some o) ∧ Visible source o ∧
    e.position? = some (Position.start.after (source.take o))

theorem reported_lex {failure : Lexer.Failure} (failed : Lexer.read source = .error failure) :
    Reported source (.lex failure) := by
  refine Or.inr ?_
  unfold Lexer.read at failed
  cases isolated : isolateBlock source with
  | error f =>
    rw [isolated] at failed
    cases failed
    obtain ⟨opening, opened, unclosed, rfl⟩ := Lexer.isolateBlock_error isolated
    obtain ⟨_, opens, first⟩ := Text.find?_some opened
    have tag : Unclosed source opening := ⟨opens, fun i early => first i (Nat.zero_le i) early,
      fun i late => Text.find?_none unclosed late⟩
    exact ⟨opening, .tag rfl tag, tag.visible, rfl⟩
  | ok text =>
    have course := Lexer.tokens_course text 0 (Nat.zero_le _)
    rw [isolated] at failed
    change Lexer.Course text 0 (Lexer.tokens .start text) at course
    change Lexer.tokens .start text = _ at failed
    rw [failed] at course
    obtain ⟨found, o, c, rest, way, ahead, fault, position⟩ := course
    have visible := Lexer.visible_of_ahead ahead (Lexer.visible_of_fault fault)
    refine ⟨o, .unreadable isolated way ahead fault, visible.of_block isolated, ?_⟩
    rw [ScriptError.position?, position, Lexer.isolateBlock_position isolated]

theorem read_way {out : Lexer.Output} (done : Lexer.read source = .ok out) :
    ∃ text found, isolateBlock source = .ok text ∧ Munched text 0 found text.length ∧
      out.tokens.map (·.kind) = found.map (·.2) ∧
      out.tokens.map (·.position) = found.map fun q => Position.start.after (text.take q.1) := by
  unfold Lexer.read at done
  cases isolated : isolateBlock source with
  | error f =>
    rw [isolated] at done
    cases done
  | ok text =>
    have course := Lexer.tokens_course text 0 (Nat.zero_le _)
    rw [isolated] at done
    change Lexer.Course text 0 (Lexer.tokens .start text) at course
    change Lexer.tokens .start text = _ at done
    rw [done] at course
    obtain ⟨found, way, listed⟩ := course
    refine ⟨text, found, rfl, way, ?_, ?_⟩
    · simpa [placed, Function.comp_def] using congrArg (List.map Prod.snd) listed
    · simpa [placed, Function.comp_def] using congrArg (List.map Prod.fst) listed

theorem reported_parse {out : Lexer.Output} {failure : Parser.Failure}
    (done : Lexer.read source = .ok out)
    (failed : Parser.read out.tokens out.stop = .error failure) :
    Reported source (.parse failure) := by
  obtain ⟨text, found, isolated, way, kinds, positions⟩ := read_way done
  obtain ⟨⟨expected, left⟩, mismatch, rfl⟩ := Parser.read_eq_error.mp failed
  rw [kinds] at mismatch
  obtain ⟨used, _, split, _⟩ := Parser.program_stuck mismatch
  obtain ⟨before, rest, rfl, rfl, rfl⟩ := List.map_eq_append_iff.mp split
  cases rest with
  | nil => exact Or.inl (.ended isolated way mismatch)
  | cons q after =>
    have visible := way.visible q (by simp)
    refine Or.inr ⟨q.1, .misplaced isolated way mismatch, visible.of_block isolated, ?_⟩
    -- the tokens that are left begin with this one
    have count := congrArg List.length positions
    simp only [List.length_map, List.length_append, List.length_cons] at count
    have size : ((q :: after).map (·.2)).length = out.tokens.length - before.length := by
      rw [List.length_map, List.length_cons]
      omega
    have place : (out.tokens.map (·.position) ++ [out.stop])[before.length]? = _ :=
      Parser.Cursor.place_of_rest (by omega)
    rw [positions, List.getElem?_append_left (by simp), List.getElem?_map,
      List.getElem?_append_right (Nat.le_refl _), Nat.sub_self] at place
    rw [ScriptError.position?, size, ← Lexer.isolateBlock_position isolated]
    exact place.symm

theorem not_ended {out : Lexer.Output} {failure : Parser.Failure} {kind : Kind} {rest : List Kind}
    (done : Lexer.read source = .ok out)
    (mismatch : Parser.program (out.tokens.map (·.kind)) = .error ⟨failure.expected, kind :: rest⟩) :
    ¬ Culprit source (.parse failure) none := by
  obtain ⟨text, found, isolated, way, kinds, _⟩ := read_way done
  intro culprit
  cases culprit with
  | ended isolated' way' mismatch' =>
    rw [kinds, way_unique isolated way isolated' way', mismatch'] at mismatch
    cases mismatch

theorem reported_of_parse (failed : parse source = .error e) : Reported source e := by
  unfold parse at failed
  cases read : Lexer.read source with
  | error failure =>
    rw [read] at failed
    cases failed
    exact reported_lex read
  | ok out =>
    rw [read] at failed
    dsimp only at failed
    cases parsed : Parser.read out.tokens out.stop with
    | error failure =>
      rw [parsed] at failed
      cases failed
      exact reported_parse read parsed
    | ok program =>
      rw [parsed] at failed
      cases failed

theorem locate_line {line : List Char} {p : Position} (title label message : String)
    (there : (Text.lines source)[p.line - 1]? = some line) :
    locate title label source message p =
      s!"{title}: {message}\n--> {label}:{p.line}:{p.column}" ++ "\n" ++
        underline (String.ofList line) p.column := by
  rw [locate, there]

theorem render_line {line : List Char} {p : Position} (label : String)
    (place : e.position? = some p) (there : (Text.lines source)[p.line - 1]? = some line) :
    ∃ head, e.render label source = head ++ "\n" ++ underline (String.ofList line) p.column := by
  cases e with
  | lex failure =>
    cases place
    exact ⟨_, locate_line _ label _ there⟩
  | parse failure =>
    cases place
    exact ⟨_, locate_line _ label _ there⟩
  | run error => cases place

theorem feed_of_visible {c : Char} (visible : Lexer.isSpace c = false) : c ≠ '\n' ∧ c ≠ '\r' := by
  constructor <;>
  · rintro rfl
    exact absurd visible (by decide)

/-- The mark under the line. A script that cannot be read, and fails at something else than its end,
    is shown with two lines at the end: the line of the script in which the culprit begins, without
    the break that ends it, and one with a mark under the culprit's first character, after as many
    spaces as the line has characters before it. -/
theorem caret_points_at_the_culprit (label : String) (failed : parse source = .error e)
    (inside : ¬ Culprit source e none) :
    ∃ before left c right after head,
      source = before ++ ((left ++ c :: right) ++ after) ∧
      Text.IsLine before (left ++ c :: right) after ∧
      (∀ o, Culprit source e (some o) ↔ o = before.length + left.length) ∧
      e.position? = some ⟨before.count '\n' + 1, left.length + 1⟩ ∧
      e.render label source = head ++ "\n" ++ String.ofList (left ++ c :: right) ++ "\n" ++
        String.ofList (List.replicate left.length ' ') ++ "^" := by
  rcases reported_of_parse failed with ended | ⟨o, culprit, ⟨c, there, visible⟩, position⟩
  · exact absurd ended inside
  obtain ⟨feed, returned⟩ := feed_of_visible visible
  obtain ⟨before, left, right, after, split, place, line⟩ := Text.exists_line there feed returned
  have taken : source.take o = before ++ left := by
    rw [split, place, ← List.length_append, List.append_assoc, ← List.append_assoc before,
      List.take_left]
  rw [taken, line.position left (List.prefix_append left _)] at position
  have shown : (Text.lines source)[before.count '\n' + 1 - 1]? = some (left ++ c :: right) := by
    rw [Nat.add_sub_cancel, split]
    exact line.get (by simp)
  obtain ⟨head, rendered⟩ := render_line label position shown
  refine ⟨before, left, c, right, after, head, split, line, fun o' => ?_, position, ?_⟩
  · constructor
    · intro other
      cases culprit.unique other
      exact place
    · intro same
      rw [same, ← place]
      exact culprit
  · rw [rendered, underline, Nat.add_sub_cancel]
    simp only [String.append_assoc]

def strayBracket : List Char := "x;\r\n  y )\r\nz".toList

def strayTokens : List Token :=
  [⟨.name "x", ['x'], ⟨1, 1⟩⟩, ⟨.symbol .semicolon, [';'], ⟨1, 2⟩⟩, ⟨.name "y", ['y'], ⟨2, 3⟩⟩,
   ⟨.symbol .rightParen, [')'], ⟨2, 5⟩⟩, ⟨.name "z", ['z'], ⟨3, 1⟩⟩]

theorem caret_points_at_the_culprit_stray :
    parse strayBracket = .error (.parse ⟨.statementEnd, ⟨2, 5⟩⟩) ∧
    ¬ Culprit strayBracket (.parse ⟨.statementEnd, ⟨2, 5⟩⟩) none ∧
    ∃ before left c right after head,
      strayBracket = before ++ ((left ++ c :: right) ++ after) ∧
      Text.IsLine before (left ++ c :: right) after ∧ left.length = 4 ∧
      (ScriptError.parse ⟨.statementEnd, ⟨2, 5⟩⟩).render "demo" strayBracket =
        head ++ "\n" ++ String.ofList (left ++ c :: right) ++ "\n" ++
          String.ofList (List.replicate left.length ' ') ++ "^" := by
  have read : Lexer.read strayBracket = .ok ⟨strayTokens, ⟨3, 2⟩⟩ := by
    with_unfolding_all rfl
  have mismatch : Parser.program (strayTokens.map (·.kind)) =
      .error ⟨.statementEnd, [.symbol .rightParen, .name "z"]⟩ := by
    have x : Grammar.Phrase 0 [.name "x"] (.localVar "x") :=
      (Grammar.Phrase.localVar "x").looser (Nat.zero_le 10)
    have y : Grammar.Phrase 0 [.name "y"] (.localVar "y") :=
      (Grammar.Phrase.localVar "y").looser (Nat.zero_le 10)
    have after := Parser.program_stray y (s := .rightParen) rfl (by decide) [.name "z"]
    have before := Parser.program_statement (.expr x)
      ([.name "y"] ++ [.symbol .rightParen, .name "z"])
    rw [after] at before
    exact before
  have failed : parse strayBracket = .error (.parse ⟨.statementEnd, ⟨2, 5⟩⟩) := by
    simp only [parse, read, Parser.read, mismatch]
    rfl
  have inside : ¬ Culprit strayBracket (.parse ⟨.statementEnd, ⟨2, 5⟩⟩) none :=
    not_ended read mismatch
  obtain ⟨before, left, c, right, after, head, split, line, _, position, shown⟩ :=
    caret_points_at_the_culprit "demo" failed inside
  refine ⟨failed, inside, before, left, c, right, after, head, split, line, ?_, shown⟩
  simpa [ScriptError.position?, eq_comm] using congrArg (Option.map Position.column) position

end Script
end FlowScript
