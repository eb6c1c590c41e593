import FlowScript.Script
import FlowScript.Proofs.Lexer.Block
import FlowScript.Proofs.Parser.Complete
import FlowScript.Proofs.Source.Print

/-!
The way from a program to its text and back. A text that holds a tag would be read as a block, so it
has to be shown that writing down never makes one. Main statement: what is written down is read as
the same program.
-/
namespace FlowScript

open Token (Kind)

namespace Lexer

theorem infix_beside {t a b : List Char} {c : Char} (free : c ∉ t) (inside : t <:+: a ++ c :: b) :
    t <:+: a ∨ t <:+: b := by
  induction a with
  | nil =>
    rcases List.infix_cons_iff.mp inside with first | later
    · exact .inl (prefix_before (a := []) free first).isInfix
    · exact .inr later
  | cons x rest ih =>
    rcases List.infix_cons_iff.mp inside with first | later
    · exact .inl (prefix_before (a := x :: rest) free first).isInfix
    · exact (ih later).imp_left List.infix_cons

section Escapes

variable {t cs : List Char} (quote : '"' ∉ t) (backslash : '\\' ∉ t)

include quote backslash

theorem prefix_escaped (first : t <+: (cs.flatMap escaped).map Char.toLower) :
    t <+: cs.map Char.toLower := by
  induction cs generalizing t with
  | nil => exact first
  | cons c rest ih =>
    cases t with
    | nil => simp
    | cons d more =>
      rw [List.flatMap_cons, escaped] at first
      split at first
      · simp only [List.cons_append, List.map_cons, List.cons_prefix_cons] at first
        exact absurd (by simp [first.1]) backslash
      · simp only [List.cons_append, List.nil_append, List.map_cons,
          List.cons_prefix_cons] at first ⊢
        exact ⟨first.1, ih (List.not_mem_of_not_mem_cons quote)
          (List.not_mem_of_not_mem_cons backslash) first.2⟩

theorem infix_escaped (inside : t <:+: (cs.flatMap escaped).map Char.toLower) :
    t <:+: cs.map Char.toLower := by
  induction cs with
  | nil => exact inside
  | cons c rest ih =>
    rw [List.flatMap_cons, escaped] at inside
    split at inside
    · rename_i special
      have same : c.toLower = c := by rcases special with rfl | rfl <;> rfl
      have apart : c ∉ t := by rcases special with rfl | rfl <;> assumption
      simp only [List.cons_append, List.nil_append, List.map_cons, same] at inside ⊢
      rcases infix_beside (a := []) backslash inside with nothing | inside
      · exact nothing.trans (by simp)
      rcases infix_beside (a := []) apart inside with nothing | inside
      · exact nothing.trans (by simp)
      · exact List.infix_cons (ih inside)
    · rename_i plain
      simp only [List.cons_append, List.nil_append, List.map_cons] at inside
      rcases List.infix_cons_iff.mp inside with first | later
      · apply List.IsPrefix.isInfix
        apply prefix_escaped quote backslash
        rw [List.flatMap_cons, escaped, if_neg plain]
        exact first
      · exact List.infix_cons (ih later)

end Escapes

theorem toLower_eq_angle {c : Char} (same : c.toLower = '<') : c = '<' := by
  unfold Char.toLower at same
  split at same
  · rename_i upper
    have := congrArg Char.val same
    simp at this
    grind
  · exact same

theorem tag_free_of_angle_free {cs : List Char} (free : '<' ∉ cs) :
    ¬ openingTag <:+: cs.map Char.toLower := by
  intro inside
  obtain ⟨c, there, same⟩ := List.mem_map.mp (inside.subset (by decide : '<' ∈ openingTag))
  exact free (toLower_eq_angle same ▸ there)

theorem tag_free_word {k : Kind} (writable : k.Writable) :
    ¬ openingTag <:+: k.spelling.map Char.toLower := by
  cases k with
  | symbol s =>
    intro inside
    have long := inside.length_le
    rw [List.length_map] at long
    cases s <;> exact absurd long (by decide)
  | number x =>
    obtain ⟨whole, fraction, plain, -⟩ := Number.read_display writable.1 writable.2
    apply tag_free_of_angle_free
    intro angle
    rcases plain.digit_or_point angle with digit | point
    · exact absurd digit (by decide)
    · exact absurd point (by decide)
  | text s =>
    intro inside
    change openingTag <:+: (('"' :: s.toList.flatMap escaped) ++ ['"']).map Char.toLower at inside
    rw [List.map_append] at inside
    rcases infix_beside (by decide) inside with inside | nothing
    · rcases infix_beside (a := []) (by decide) inside with nothing | inside
      · exact absurd nothing (by decide)
      · exact writable (infix_escaped (by decide) (by decide) inside)
    · exact absurd nothing (by decide)
  | name s =>
    obtain ⟨c, cs, same, start, parts, -⟩ := writable.chars
    apply tag_free_of_angle_free
    intro angle
    change '<' ∈ s.toList at angle
    rw [same, List.mem_cons] at angle
    rcases angle with rfl | angle
    · exact absurd start (by decide)
    · exact absurd (parts _ angle) (by decide)
  | global s =>
    obtain ⟨c, cs, same, parts⟩ := writable.chars
    apply tag_free_of_angle_free
    intro angle
    change '<' ∈ s.toList at angle
    rw [same, List.mem_cons] at angle
    rcases angle with wrong | angle
    · exact absurd wrong (by decide)
    · exact absurd (parts _ angle) (by decide)
  | bool b => cases b <;> exact tag_free_of_angle_free (by decide)

theorem tag_free {ks : List Kind} (writable : ∀ k ∈ ks, k.Writable) :
    ¬ openingTag <:+: (List.intercalate [' '] (ks.map Kind.spelling)).map Char.toLower := by
  induction ks with
  | nil => exact tag_free_of_angle_free (by simp)
  | cons k rest ih =>
    obtain ⟨here, later⟩ := List.forall_mem_cons.mp writable
    cases rest with
    | nil =>
      simp only [List.map_cons, List.map_nil, List.intercalate_singleton]
      exact tag_free_word here
    | cons next more =>
      intro inside
      rw [List.map_cons, List.map_cons, List.intercalate_cons_cons, List.append_assoc,
        List.singleton_append, List.map_append, List.map_cons] at inside
      rcases infix_beside (by decide) inside with left | right
      · exact tag_free_word here left
      · exact ih later right

end Lexer

namespace Script

theorem parse_of_sentence {p q : Program} (writable : ∀ e ∈ p, ∀ k ∈ e.leaves, k.Writable)
    (sentence : Grammar.Sentence ((Program.words p).map (.mapNumber Number.positiveZero)) q) :
    parse (print p) = .ok q := by
  have words : ∀ k ∈ Program.words p, k.Writable := by
    intro k inside
    cases leaf : k.isLeaf with
    | true =>
      obtain ⟨e, listed, there⟩ := Program.leaf_of_word leaf inside
      exact writable e listed k there
    | false => cases k <;> trivial
  obtain ⟨out, read, kinds⟩ := Lexer.tokens_words words .start
  have block := Lexer.isolateBlock_of_tag_free (Lexer.tag_free words)
  unfold parse print Lexer.read
  rw [block]
  simp only [read, Parser.read, kinds, Parser.program_complete sentence]

/-- Reading the text of a program gives the program back. A zero comes back without its sign, since
    both zeros have the same text; where no number has a sign, nothing changes at all. No other line
    of tokens for the program is shorter, so that the text has no needless parentheses. -/
theorem parse_gives_back_the_program (p : Program)
    (writable : ∀ e ∈ p, ∀ k ∈ e.leaves, k.Writable) :
    parse (print p) = .ok (p.map (·.mapNumbers Number.positiveZero)) ∧
    ((∀ e ∈ p, ∀ k ∈ e.leaves, k.isSigned = false) → parse (print p) = .ok p) ∧
    ∀ ts, Grammar.Sentence ts p → (Program.words p).length ≤ ts.length := by
  refine ⟨?_, ?_, fun _ => Program.words_shortest⟩
  · apply parse_of_sentence writable
    rw [← Program.words_mapNumbers]
    exact Program.sentence_words _
  · intro unsigned
    apply parse_of_sentence writable
    have same : (Program.words p).map (.mapNumber Number.positiveZero) = Program.words p := by
      rw [List.map_congr_left (g := id), List.map_id]
      intro k inside
      cases k with
      | number x =>
        obtain ⟨e, listed, there⟩ := Program.leaf_of_word rfl inside
        have finite := (writable e listed _ there).1
        exact congrArg Kind.number (Number.positiveZero_eq finite (unsigned e listed _ there))
      | symbol | name | global | text | bool => rfl
    rw [same]
    exact Program.sentence_words p

def sample : Program :=
  [.assign (.localVar "total") .assign
      (.binary (.binary (.number 1.5) .add (.number 2)) .power (.unary .negative (.localVar "n"))),
    .call "If" [.globalVar "$ok", .text "\"<trans\"", .array [.number 0, .bool true]]]

theorem parse_gives_back_the_program_sample :
    print sample = ("total = ( 1.5 + 2 ) ^ - n ; " ++
      "If ( $ok , \"\\\"<trans\\\"\" , \x7b 0 , true \x7d )").toList ∧
    parse (print sample) = .ok sample :=
  ⟨by decide +kernel, (parse_gives_back_the_program sample (by decide)).2.1 (by decide)⟩

end Script
end FlowScript
