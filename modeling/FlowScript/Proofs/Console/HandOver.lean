import FlowScript.Console.Session
import FlowScript.Proofs.Console.Scan
import FlowScript.Proofs.Lexer.Ending
import FlowScript.Proofs.Parser.Complete
import FlowScript.Proofs.Text.Blank

/-!
When a session hands over what was typed. A program that can be read has balanced brackets, so that
only its last characters can make the session wait. Main statement: they do so in no case but one,
namely when the text ends in a comment whose end looks like an operator.
-/
namespace FlowScript

open Token (Kind)

namespace Lexer

variable {c : Char}

theorem blank_of_isSpace (space : isSpace c = true) : Text.isBlank c = true := by
  simp only [isSpace, Bool.or_eq_true, beq_iff_eq] at space
  rcases space with ((rfl | rfl) | rfl) | rfl <;> decide

theorem not_blank_of_nameRest (part : isNameRest c = true) : Text.isBlank c = false := by
  have ranges : isNameRest c = (c == '_' || c == '.' ||
      (decide ('A'.val ≤ c.val ∧ c.val ≤ 'Z'.val) || decide ('a'.val ≤ c.val) &&
        decide (c.val ≤ 'z'.val) || decide ('0'.val ≤ c.val) && decide (c.val ≤ '9'.val))) := rfl
  simp only [ranges, Bool.or_eq_true, Bool.and_eq_true, beq_iff_eq, decide_eq_true_eq,
    UInt32.le_iff_toNat_le] at part
  rcases part with (rfl | rfl) | alphanumeric
  · decide
  · decide
  · have low : '0'.val.toNat = 48 ∧ '9'.val.toNat = 57 ∧ 'A'.val.toNat = 65 ∧ 'Z'.val.toNat = 90 ∧
        'a'.val.toNat = 97 ∧ 'z'.val.toNat = 122 := by decide
    apply Text.not_blank_of_ascii
    all_goals
      rw [Char.toNat]
      omega

theorem not_blank_of_quote (quote : isQuote c = true) : Text.isBlank c = false := by
  rcases Console.isQuote_iff.mp quote with rfl | rfl <;> decide

end Lexer

namespace Console

open Lexer Grammar

theorem endsOpen_of_last {c : Char} (closed : c ∉ openEndings) (cs : List Char) :
    endsOpen (c :: cs) = false := by
  unfold endsOpen
  split
  · rfl
  · rfl
  · rename_i same
    cases same
    simpa using closed
  · rfl

/-- The text ends in a character that is neither white space nor part of an operator that wants an
    operand. -/
def Settled (cs : List Char) : Prop :=
  ∃ a, cs.getLast? = some a ∧ Text.isBlank a = false ∧ endsOpen cs.reverse = false

theorem settled_concat {a : Char} (visible : Text.isBlank a = false) (closed : a ∉ openEndings)
    (cs : List Char) : Settled (cs ++ [a]) := by
  refine ⟨a, List.getLast?_concat, visible, ?_⟩
  rw [List.reverse_append]
  exact endsOpen_of_last closed cs.reverse

theorem settled_word {lexeme : List Char} {a : Char} (last : lexeme.getLast? = some a)
    (part : isNameRest a = true ∨ isQuote a = true) (before : List Char) :
    Settled (before ++ lexeme) := by
  obtain ⟨inner, rfl⟩ := List.getLast?_eq_some_iff.mp last
  rw [← List.append_assoc]
  rcases part with name | quote
  · exact settled_concat (not_blank_of_nameRest name) (not_mem_of_test (by decide) name) _
  · exact settled_concat (not_blank_of_quote quote) (not_mem_of_test (by decide) quote) _

theorem settled_symbol {s : Symbol}
    (last : endsPhrase (.symbol s) = true ∨ Kind.symbol s = .symbol .semicolon)
    (before : List Char) : Settled (before ++ s.spelling) := by
  cases s with
  | rightParen | rightBrace | rightBracket | semicolon =>
    exact settled_concat (by decide) (by decide) before
  | plusPlus =>
    refine ⟨'+', ?_, by decide, ?_⟩
    all_goals simp [Symbol.spelling, endsOpen]
  | minusMinus =>
    refine ⟨'-', ?_, by decide, ?_⟩
    all_goals simp [Symbol.spelling, endsOpen]
  | _ =>
    rcases last with ends | other
    · exact absurd ends (by decide)
    · cases other

theorem settled_token {kind : Kind} {lexeme : List Char} (spelled : Spelled kind lexeme)
    (last : endsPhrase kind = true ∨ kind = .symbol .semicolon) (before : List Char) :
    Settled (before ++ lexeme) := by
  cases kind with
  | symbol s =>
    obtain rfl : lexeme = s.spelling := spelled
    exact settled_symbol last before
  | _ =>
    obtain ⟨a, ends, part⟩ := spelled
    exact settled_word ends part before

theorem sentence_of_parse {source : List Char} {p : Program}
    (parsed : Script.parse source = .ok p) :
    ∃ out, Lexer.read source = .ok out ∧ Sentence (out.tokens.map (·.kind)) p := by
  unfold Script.parse at parsed
  split at parsed
  · cases parsed
  · rename_i out read
    refine ⟨out, read, Parser.program_iff.mp ?_⟩
    unfold Parser.read at parsed
    cases result : Parser.program (out.tokens.map (·.kind)) with
    | ok q =>
      rw [result] at parsed
      cases parsed
      rfl
    | error mismatch =>
      rw [result] at parsed
      cases parsed

theorem plus_balanced {d : Depths} {ks : List Kind} (balanced : Balanced ks) : d.plus ks = d := by
  have paren := balanced (.leftParen, .rightParen) (by decide)
  have brace := balanced (.leftBrace, .rightBrace) (by decide)
  have bracket := balanced (.leftBracket, .rightBracket) (by decide)
  dsimp only at paren brace bracket
  simp [Depths.plus, paren, brace, bracket]

section Program

variable {source : List Char} {p : Program}
  (untagged : ¬ openingTag <:+: source.map Char.toLower) (parsed : Script.parse source = .ok p)

include untagged parsed

theorem needsMoreInput_of_parse :
    needsMoreInput source = endsOpen (Text.trimEnd source).reverse := by
  obtain ⟨out, read, sentence⟩ := sentence_of_parse parsed
  have explained := verdict_of_read untagged
  rw [read] at explained
  have closed : verdict .code .zero source = (false, .zero) := by
    rw [explained, plus_balanced sentence.balanced]
  rw [needsMoreInput_eq, closed]
  rfl

theorem endsInComment_of_endsOpen (unsettled : endsOpen (Text.trimEnd source).reverse = true) :
    EndsInComment source := by
  obtain ⟨out, read, sentence⟩ := sentence_of_parse parsed
  rcases read_ending untagged read with blank | token | comment
  · rw [Text.trimEnd_eq_nil.mpr fun c there => blank_of_isSpace (blank c there)] at unsettled
    cases unsettled
  · obtain ⟨before, t, after, split, blank, last, spelled⟩ := token
    have kind : (out.tokens.map (·.kind)).getLast? = some t.kind := by
      rw [List.getLast?_map, last]
      rfl
    obtain ⟨a, ends, visible, closed⟩ := settled_token spelled (sentence.last kind) before
    rw [split, Text.trimEnd_append ends visible fun c there => blank_of_isSpace (blank c there),
      closed] at unsettled
    cases unsettled
  · exact comment

end Program

/-- What one line does to a session: it is passed over, it is added to the buffer, or it completes
    an input. -/
theorem pushLine_cases (s : Session) (raw : List Char) :
    (s.buffer = [] ∧ Text.trimEnd raw = []) ∧ s.pushLine raw = (none, s) ∨
    ¬ (s.buffer = [] ∧ Text.trimEnd raw = []) ∧
      ∃ buffer, buffer = Session.extend s.buffer (Text.trimEnd raw) ∧
        (needsMoreInput buffer = true ∧ s.pushLine raw = (none, { s with buffer }) ∨
          needsMoreInput buffer = false ∧ ∃ history,
            history = (if Text.trim buffer = [] then s.history
              else trimHistory (s.history ++ [String.ofList buffer])) ∧
            s.pushLine raw = (some buffer, { s with buffer := [], history })) := by
  unfold Session.pushLine
  by_cases skipped : s.buffer = [] ∧ Text.trimEnd raw = []
  · refine Or.inl ⟨skipped, ?_⟩
    rw [skipped.1, skipped.2]
    rfl
  · have kept : (s.buffer.isEmpty && (Text.trim (Text.trimEnd raw)).isEmpty) = false := by
      rw [Bool.eq_false_iff]
      intro dropped
      rw [Bool.and_eq_true, List.isEmpty_iff, List.isEmpty_iff] at dropped
      exact skipped ⟨dropped.1, Text.trim_trimEnd dropped.2⟩
    refine Or.inr ⟨skipped, _, rfl, ?_⟩
    simp only [kept]
    cases needsMoreInput (Session.extend s.buffer (Text.trimEnd raw)) with
    | true => exact Or.inl ⟨rfl, rfl⟩
    | false => exact Or.inr ⟨rfl, _, rfl, by simp⟩

theorem pushLine_of_complete {source : List Char} (complete : needsMoreInput source = false)
    (solid : source ≠ []) (s : Session) {raw : List Char}
    (typed : Session.extend s.buffer (Text.trimEnd raw) = source) :
    (s.pushLine raw).1 = some source ∧ (s.pushLine raw).2.buffer = [] := by
  rcases pushLine_cases s raw with ⟨skipped, _⟩ | ⟨_, buffer, rfl, taken⟩
  · rw [skipped.1, skipped.2] at typed
    exact absurd typed.symm solid
  · rw [typed] at taken
    rcases taken with ⟨more, _⟩ | ⟨_, history, _, eq⟩
    · rw [complete] at more
      cases more
    · rw [eq]
      exact ⟨rfl, rfl⟩

/-- The text ends in a comment, and the end of the comment looks like an operator that wants an
    operand. -/
def EndsInOpenComment (source : List Char) : Prop :=
  EndsInComment source ∧ endsOpen (Text.trimEnd source).reverse = true

/-- A text without tags that can be read as a program. A session waits for more exactly when the
    text ends in a comment that looks open; otherwise it hands the text over at once. -/
theorem complete_program_waits_only_after_comment {source : List Char} {p : Program}
    (untagged : ¬ openingTag <:+: source.map Char.toLower)
    (parsed : Script.parse source = .ok p) :
    (needsMoreInput source = true ↔ EndsInOpenComment source) ∧
    (¬ EndsInOpenComment source → source ≠ [] → ∀ (s : Session) (raw : List Char),
      Session.extend s.buffer (Text.trimEnd raw) = source →
        (s.pushLine raw).1 = some source ∧ (s.pushLine raw).2.buffer = []) := by
  have waits : needsMoreInput source = true ↔ EndsInOpenComment source := by
    rw [needsMoreInput_of_parse untagged parsed]
    constructor
    · exact fun unsettled => ⟨endsInComment_of_endsOpen untagged parsed unsettled, unsettled⟩
    · exact fun comment => comment.2
  constructor
  · exact waits
  · intro settled solid s raw typed
    have complete : needsMoreInput source = false := by
      rw [Bool.eq_false_iff]
      exact fun more => settled (waits.mp more)
    exact pushLine_of_complete complete solid s typed

theorem parse_name {source : List Char} {name : String} {lexeme : List Char} {place stop : Position}
    (read : Lexer.read source = .ok ⟨[⟨.name name, lexeme, place⟩], stop⟩) :
    Script.parse source = .ok [.localVar name] := by
  have phrase : Grammar.Phrase 0 [.name name] (.localVar name) :=
    (Grammar.Phrase.localVar name).looser (Nat.zero_le 10)
  have program : Parser.program [.name name] = .ok [.localVar name] :=
    Parser.program_last (.expr phrase)
  simp [Script.parse, read, Parser.read, program]

theorem complete_program_waits_only_after_comment_remark :
    Script.parse "x // ok".toList = .ok [.localVar "x"] ∧
    needsMoreInput "x // ok".toList = false ∧ ∀ library machine,
      ((Session.start library machine).pushLine "x // ok ".toList).1 = some "x // ok".toList := by
  have untagged : ¬ openingTag <:+: "x // ok".toList.map Char.toLower := by decide +kernel
  have read : Lexer.read "x // ok".toList = .ok ⟨[⟨.name "x", ['x'], ⟨1, 1⟩⟩], ⟨1, 8⟩⟩ := by
    with_unfolding_all rfl
  have parsed := parse_name read
  have settled : ¬ EndsInOpenComment "x // ok".toList := fun comment =>
    absurd comment.2 (by decide)
  obtain ⟨waits, handed⟩ := complete_program_waits_only_after_comment untagged parsed
  refine ⟨parsed, ?_, ?_⟩
  · rw [Bool.eq_false_iff]
    exact fun more => settled (waits.mp more)
  · intro library machine
    have typed : Session.extend [] (Text.trimEnd "x // ok ".toList) = "x // ok".toList := by decide
    exact (handed settled (by decide) (Session.start library machine) _ typed).1

/-- A comment at the end makes the session wait, although the program before it is complete. -/
theorem complete_program_held_back_by_comment :
    ¬ openingTag <:+: "x /* one */".toList.map Char.toLower ∧
    Script.parse "x /* one */".toList = .ok [.localVar "x"] ∧
    needsMoreInput "x /* one */".toList = true ∧ ∀ library machine,
      ((Session.start library machine).pushLine "x /* one */".toList).1 = none := by
  have waits : needsMoreInput "x /* one */".toList = true := by with_unfolding_all rfl
  have read : Lexer.read "x /* one */".toList = .ok ⟨[⟨.name "x", ['x'], ⟨1, 1⟩⟩], ⟨1, 12⟩⟩ := by
    with_unfolding_all rfl
  refine ⟨by decide +kernel, parse_name read, waits, ?_⟩
  intro library machine
  have typed : Session.extend [] (Text.trimEnd "x /* one */".toList) = "x /* one */".toList := by
    decide
  have kept : (Text.trim (Text.trimEnd "x /* one */".toList)).isEmpty = false := by decide
  unfold Session.pushLine
  simp only [Session.start, List.isEmpty_nil, Bool.true_and, kept, typed, waits]
  rfl

end Console
end FlowScript
