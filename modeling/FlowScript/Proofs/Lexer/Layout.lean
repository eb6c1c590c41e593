import FlowScript.Proofs.Lexer.Block
import Mathlib.Data.List.TakeWhile

/-!
How tokens and comments lie in a text. Main statement: every token stands in the text where its
position says, tokens and comments do not overlap, everything else that is read is white space, and
a text that cannot be read fails where the offending token, comment or tag begins.
-/
namespace FlowScript.Lexer

def Firm (cs : List Char) : Prop :=
  (∃ c, cs.head? = some c ∧ isSpace c = false) ∧ ∃ c, cs.getLast? = some c ∧ isSpace c = false

def IsLineComment (cs : List Char) : Prop := ∃ body, cs = '/' :: '/' :: body ∧ '\n' ∉ body

def IsBlockComment (cs : List Char) : Prop :=
  ∃ body, cs = '/' :: '*' :: body ++ ['*', '/'] ∧ ¬ ['*', '/'] <:+: body ++ ['*']

theorem firm_of_all {cs : List Char} (some_char : cs ≠ []) (visible : ∀ c ∈ cs, isSpace c = false) :
    Firm cs := by
  refine ⟨⟨cs.head some_char, List.head?_eq_some_head some_char, ?_⟩,
    ⟨cs.getLast some_char, List.getLast?_eq_some_getLast some_char, ?_⟩⟩
  · exact visible _ (List.head_mem some_char)
  · exact visible _ (List.getLast_mem some_char)

theorem visible_of_nameRest {c : Char} (part : isNameRest c = true) : isSpace c = false := by
  rw [Bool.eq_false_iff]
  intro space
  simp only [isSpace, Bool.or_eq_true, beq_iff_eq] at space
  rcases space with ((rfl | rfl) | rfl) | rfl <;> exact absurd part (by decide)

theorem visible_of_spelling {s : Symbol} : ∀ c ∈ s.spelling, isSpace c = false := by
  cases s <;> simp [Symbol.spelling, isSpace]

theorem spelling_ne_nil (s : Symbol) : s.spelling ≠ [] := by
  cases s <;> simp [Symbol.spelling]

theorem munchSymbol_token {c : Char} {cs lexeme rest : List Char} {kind : Token.Kind}
    (taken : munchSymbol c cs = .token kind lexeme rest) : ∃ s : Symbol, lexeme = s.spelling := by
  have single (taken : munchChar c cs = .token kind lexeme rest) :
      ∃ s : Symbol, lexeme = s.spelling := by
    unfold munchChar at taken
    split at taken
    · rename_i s found
      cases taken
      exact ⟨s, (Symbol.spelling_of_ofChar? found).symm⟩
    · cases taken
  unfold munchSymbol at taken
  split at taken
  · exact single taken
  · split at taken
    · rename_i s found
      cases taken
      exact ⟨s, (Symbol.spelling_of_ofPair? found).symm⟩
    · exact single taken

theorem munchSymbol_firm {c : Char} {cs lexeme rest : List Char} {kind : Token.Kind}
    (taken : munchSymbol c cs = .token kind lexeme rest) : Firm lexeme := by
  obtain ⟨s, rfl⟩ := munchSymbol_token taken
  exact firm_of_all (spelling_ne_nil s) visible_of_spelling

theorem textBody?_last {quote : Char} {cs value raw rest : List Char}
    (read : textBody? quote cs = some (value, raw, rest)) : raw.getLast? = some quote := by
  fun_induction textBody? quote cs generalizing value raw rest with
  | case1 => simp at read
  | case2 c tail ih =>
    simp only [Option.map_eq_some_iff, Prod.exists, Prod.mk.injEq] at read
    obtain ⟨v, r, t, inner, rfl, rfl, rfl⟩ := read
    simp [List.getLast?_cons, ih inner]
  | case3 tail _ =>
    simp only [Option.some.injEq, Prod.mk.injEq] at read
    obtain ⟨rfl, rfl, rfl⟩ := read
    rfl
  | case4 c tail _ _ ih =>
    simp only [Option.map_eq_some_iff, Prod.exists, Prod.mk.injEq] at read
    obtain ⟨v, r, t, inner, rfl, rfl, rfl⟩ := read
    simp [List.getLast?_cons, ih inner]

theorem munchText_firm {quote : Char} (isquote : isQuote quote = true) {cs lexeme rest : List Char}
    {kind : Token.Kind} (taken : munchText quote cs = .token kind lexeme rest) : Firm lexeme := by
  have visible : isSpace quote = false := by
    simp only [isQuote, Bool.or_eq_true, beq_iff_eq] at isquote
    rcases isquote with rfl | rfl <;> decide
  unfold munchText at taken
  split at taken
  · rename_i body
    cases taken
    refine ⟨⟨quote, rfl, visible⟩, ⟨quote, ?_, visible⟩⟩
    simp [List.getLast?_cons, textBody?_last body]
  · cases taken

theorem munchGlobal_firm {cs lexeme rest : List Char} {kind : Token.Kind}
    (taken : munchGlobal cs = .token kind lexeme rest) : Firm lexeme := by
  unfold munchGlobal at taken
  split at taken
  · cases taken
  · rename_i c more name
    cases taken
    refine firm_of_all (by simp) (List.forall_mem_cons.mpr ⟨by decide, ?_⟩)
    rw [← name]
    exact fun d member => visible_of_nameRest (List.mem_takeWhile_imp member)

theorem nameRest_of_nameStart {c : Char} (start : isNameStart c = true) : isNameRest c = true := by
  simp only [isNameStart, isNameRest, Char.isAlphanum, Bool.or_eq_true] at start ⊢
  rcases start with underscore | letter
  · exact Or.inl (Or.inl underscore)
  · exact Or.inr (Or.inl letter)

theorem name_parts {c : Char} (start : isNameStart c = true) (cs : List Char) :
    ∀ d ∈ c :: cs.takeWhile isNameRest, isNameRest d = true :=
  List.forall_mem_cons.mpr
    ⟨nameRest_of_nameStart start, fun _ member => List.mem_takeWhile_imp member⟩

theorem nameKind_ne_symbol (lexeme : List Char) (s : Symbol) : nameKind lexeme ≠ .symbol s := by
  unfold nameKind
  split
  · simp
  · split <;> simp

theorem munchName_firm {c : Char} (start : isNameStart c = true) {cs lexeme rest : List Char}
    {kind : Token.Kind} (taken : munchName c cs = .token kind lexeme rest) : Firm lexeme := by
  cases taken
  apply firm_of_all (by simp)
  exact fun d member => visible_of_nameRest (name_parts start cs d member)

def isNumeralPart (c : Char) : Bool := c.isDigit || ['.', 'e', 'E', '+', '-'].contains c

theorem visible_of_numeralPart {c : Char} (part : isNumeralPart c = true) : isSpace c = false := by
  rw [Bool.eq_false_iff]
  intro space
  simp only [isSpace, Bool.or_eq_true, beq_iff_eq] at space
  rcases space with ((rfl | rfl) | rfl) | rfl <;> exact absurd part (by decide)

theorem numeralPart_of_digit {c : Char} (digit : c.isDigit = true) : isNumeralPart c = true := by
  simp [isNumeralPart, digit]

theorem visible_of_digit {c : Char} (digit : c.isDigit = true) : isSpace c = false :=
  visible_of_numeralPart (numeralPart_of_digit digit)

theorem digits_numeralPart (cs : List Char) :
    ∀ c ∈ cs.takeWhile Char.isDigit, isNumeralPart c = true :=
  fun _ member => numeralPart_of_digit (List.mem_takeWhile_imp member)

theorem fractionPart_numeralPart (cs : List Char) :
    ∀ c ∈ (fractionPart cs).1, isNumeralPart c = true := by
  unfold fractionPart
  split
  · split
    · exact List.forall_mem_cons.mpr ⟨by decide, digits_numeralPart _⟩
    · simp
  · simp

theorem exponentPart_numeralPart (cs : List Char) :
    ∀ c ∈ (exponentPart cs).1, isNumeralPart c = true := by
  unfold exponentPart
  split
  · simp
  · rename_i e rest
    split
    · rename_i mark
      have mark_part : isNumeralPart e = true := by rcases mark with rfl | rfl <;> decide
      split
      · simp
      · rename_i s more
        split
        · rename_i sign
          have sign_part : isNumeralPart s = true := by rcases sign with rfl | rfl <;> decide
          split
          · exact List.forall_mem_cons.mpr
              ⟨mark_part, List.forall_mem_cons.mpr ⟨sign_part, digits_numeralPart more⟩⟩
          · simp
        · split
          · exact List.forall_mem_cons.mpr ⟨mark_part, digits_numeralPart (s :: more)⟩
          · simp
    · simp

theorem numeral_numeralPart {c : Char} (first : isNumeralPart c = true) (cs : List Char) :
    ∀ d ∈ (numeral c cs).1, isNumeralPart d = true := by
  simp only [numeral, List.cons_append, List.forall_mem_cons, List.forall_mem_append]
  exact ⟨first, ⟨digits_numeralPart _, fractionPart_numeralPart _⟩, exponentPart_numeralPart _⟩

theorem munchNumber_firm {c : Char} (first : isNumeralPart c = true) {cs lexeme rest : List Char}
    {kind : Token.Kind} (taken : munchNumber c cs = .token kind lexeme rest) : Firm lexeme := by
  unfold munchNumber at taken
  simp only at taken
  split at taken
  · cases taken
    refine firm_of_all (by simp [numeral]) ?_
    exact fun d member => visible_of_numeralPart (numeral_numeralPart first cs d member)
  · cases taken

theorem numeralPart_of_start {c : Char} {cs : List Char}
    (start : (c.isDigit || (c == '.' && startsWithDigit cs)) = true) : isNumeralPart c = true := by
  rw [Bool.or_eq_true, Bool.and_eq_true, beq_iff_eq] at start
  rcases start with digit | ⟨rfl, _⟩
  · exact numeralPart_of_digit digit
  · decide

theorem munchSlash_firm {cs lexeme rest : List Char} {kind : Token.Kind}
    (taken : munchSlash cs = .token kind lexeme rest) : Firm lexeme := by
  unfold munchSlash at taken
  split at taken
  · cases taken
  · unfold munchComment at taken
    split at taken <;> cases taken
  · exact munchSymbol_firm taken

theorem munch_firm {c : Char} {cs lexeme rest : List Char} {kind : Token.Kind}
    (taken : munch c cs = .token kind lexeme rest) : Firm lexeme := by
  unfold munch at taken
  split at taken
  · cases taken
  split at taken
  · exact munchSlash_firm taken
  split at taken
  · rename_i isquote
    exact munchText_firm isquote taken
  split at taken
  · exact munchGlobal_firm taken
  split at taken
  · rename_i start
    exact munchNumber_firm (numeralPart_of_start start) taken
  split at taken
  · rename_i start
    exact munchName_firm start taken
  · exact munchSymbol_firm taken

theorem commentBody?_first {cs raw rest : List Char} (read : commentBody? cs = some (raw, rest)) :
    ∃ body, raw = body ++ ['*', '/'] ∧ ¬ ['*', '/'] <:+: body ++ ['*'] := by
  fun_induction commentBody? cs generalizing raw rest with
  | case1 => simp at read
  | case2 tail =>
    simp only [Option.some.injEq, Prod.mk.injEq] at read
    obtain ⟨rfl, rfl⟩ := read
    exact ⟨[], rfl, by decide⟩
  | case3 c tail other ih =>
    simp only [Option.map_eq_some_iff, Prod.exists, Prod.mk.injEq] at read
    obtain ⟨r, t, inner, rfl, rfl⟩ := read
    obtain ⟨body, rfl, first⟩ := ih inner
    refine ⟨c :: body, rfl, ?_⟩
    rw [List.cons_append, List.infix_cons_iff]
    rintro (here | later)
    · -- the end mark would stand right at the start, where it was not found
      obtain ⟨more, same⟩ := here
      have start := commentBody?_append inner
      cases body with
      | nil => simp at same
      | cons d body =>
        simp only [List.cons_append, List.nil_append, List.cons.injEq] at same start
        exact other _ same.1.symm (by rw [same.2.1, start])
    · exact first later

theorem munch_skip {c : Char} {cs lexeme rest : List Char}
    (taken : munch c cs = .skip lexeme rest) :
    (lexeme = [c] ∧ isSpace c = true) ∨
    (IsLineComment lexeme ∧ (rest = [] ∨ rest.head? = some '\n')) ∨ IsBlockComment lexeme := by
  have symbol (c : Char) (cs : List Char) : munchSymbol c cs ≠ .skip lexeme rest := by
    unfold munchSymbol munchChar
    repeat' split
    all_goals simp
  unfold munch at taken
  split at taken
  · rename_i space
    cases taken
    exact Or.inl ⟨rfl, space⟩
  refine Or.inr ?_
  split at taken
  · unfold munchSlash at taken
    split at taken
    · rename_i more
      cases taken
      have slash : notLineFeed '/' = true := by decide
      rw [List.takeWhile_cons_of_pos slash, List.dropWhile_cons_of_pos slash]
      refine Or.inl ⟨⟨more.takeWhile notLineFeed, rfl, ?_⟩, ?_⟩
      · intro feed
        exact absurd (List.mem_takeWhile_imp feed) (by decide)
      · have stopped := List.head?_dropWhile_not notLineFeed more
        cases left : more.dropWhile notLineFeed with
        | nil => exact Or.inl rfl
        | cons d tail => exact Or.inr (by simpa [left, notLineFeed] using stopped)
    · unfold munchComment at taken
      split at taken
      · rename_i body
        cases taken
        obtain ⟨inner, rfl, first⟩ := commentBody?_first body
        exact Or.inr ⟨inner, rfl, first⟩
      · cases taken
    · exact absurd taken (symbol _ _)
  split at taken
  · unfold munchText at taken
    split at taken <;> cases taken
  split at taken
  · unfold munchGlobal at taken
    split at taken <;> cases taken
  split at taken
  · unfold munchNumber at taken
    simp only at taken
    split at taken <;> cases taken
  split at taken
  · cases taken
  · exact absurd taken (symbol _ _)

inductive Piece where
  | token (t : Token)
  | comment (chars : List Char)

namespace Piece

def chars : Piece → List Char
  | token t => t.lexeme
  | comment chars => chars

def token? : Piece → Option Token
  | token t => some t
  | comment _ => none

/-- A token has the position of the place where it begins. A comment that ends with its line is
    followed by a line feed, unless nothing follows. -/
def Proper (text : List Char) (last o : Nat) : Piece → Prop
  | token t => t.lexeme ≠ [] ∧ t.position = Position.start.after (text.take o)
  | comment chars => IsBlockComment chars ∨
      IsLineComment chars ∧ (o + chars.length = last ∨ text[o + chars.length]? = some '\n')

end Piece

/-- The pieces stand at their places in the text, in order and without overlap, and all that is
    left between two places is white space. -/
structure Laid (text : List Char) (first last : Nat) (pieces : List (Nat × Piece)) : Prop where
  inside : ∀ q ∈ pieces, first ≤ q.1 ∧ q.1 + q.2.chars.length ≤ last
  there : ∀ q ∈ pieces, (text.drop q.1).take q.2.chars.length = q.2.chars
  proper : ∀ q ∈ pieces, q.2.Proper text last q.1
  apart : pieces.Pairwise fun a b => a.1 + a.2.chars.length ≤ b.1
  blank : ∀ i c, first ≤ i → i < last → text[i]? = some c →
    (∀ q ∈ pieces, ¬ (q.1 ≤ i ∧ i < q.1 + q.2.chars.length)) → isSpace c = true

variable {text : List Char} {first last : Nat} {pieces : List (Nat × Piece)}

theorem laid_nil (text : List Char) (k : Nat) : Laid text k k [] where
  inside := by simp
  there := by simp
  proper := by simp
  apart := by simp
  blank i c early late := by omega

theorem Laid.space {c : Char} (laid : Laid text (first + 1) last pieces)
    (there : text[first]? = some c) (space : isSpace c = true) : Laid text first last pieces where
  inside q listed := by
    have := laid.inside q listed
    omega
  there := laid.there
  proper := laid.proper
  apart := laid.apart
  blank i d early late found free := by
    by_cases here : i = first
    · subst here
      cases there.symm.trans found
      exact space
    · exact laid.blank i d (by omega) late found free

theorem Laid.cons {piece : Piece} (laid : Laid text (first + piece.chars.length) last pieces)
    (before : first + piece.chars.length ≤ last)
    (there : (text.drop first).take piece.chars.length = piece.chars)
    (proper : piece.Proper text last first) : Laid text first last ((first, piece) :: pieces) where
  inside := by
    refine List.forall_mem_cons.mpr ⟨⟨Nat.le_refl _, before⟩, ?_⟩
    intro q listed
    have := laid.inside q listed
    omega
  there := List.forall_mem_cons.mpr ⟨there, laid.there⟩
  proper := List.forall_mem_cons.mpr ⟨proper, laid.proper⟩
  apart := List.pairwise_cons.mpr ⟨fun q listed => (laid.inside q listed).1, laid.apart⟩
  blank i d early late found free := by
    rw [List.forall_mem_cons] at free
    refine laid.blank i d ?_ late found free.2
    have := free.1
    dsimp only at this
    omega

theorem tokens_nil (p : Position) : tokens p [] = .ok ⟨[], p⟩ := by rw [tokens]

def Output.add (t : Token) (out : Output) : Output := { out with tokens := t :: out.tokens }

theorem tokens_cons (p : Position) (c : Char) (cs : List Char) :
    tokens p (c :: cs) =
      match munch c cs with
      | .token kind lexeme tail => (tokens (p.after lexeme) tail).map (.add ⟨kind, lexeme, p⟩)
      | .skip lexeme tail => tokens (p.after lexeme) tail
      | .fault cause => .error ⟨cause, p⟩ := by
  rw [tokens]
  cases munch c cs with
  | token kind lexeme tail =>
    dsimp only
    cases tokens (p.after lexeme) tail <;> rfl
  | skip lexeme tail => rfl
  | fault cause => rfl

def AllFirm (pieces : List (Nat × Piece)) : Prop :=
  ∀ q ∈ pieces, ∀ t, q.2 = .token t → Firm t.lexeme

/-- What reading the text from a place on comes to. -/
def Outcome (text : List Char) (k : Nat) : Except Failure Output → Prop
  | .ok out => out.stop = Position.start.after text ∧ ∃ pieces, Laid text k text.length pieces ∧
      AllFirm pieces ∧ out.tokens = pieces.filterMap (·.2.token?)
  | .error failure => ∃ o pieces c rest, k ≤ o ∧ Laid text k o pieces ∧ AllFirm pieces ∧
      text.drop o = c :: rest ∧ munch c rest = .fault failure.fault ∧
      failure.position = Position.start.after (text.take o)

section Step

variable {k : Nat} {lexeme tail : List Char} (split : lexeme ++ tail = text.drop k)

include split

theorem split_tail : tail = text.drop (k + lexeme.length) := by
  rw [← List.drop_drop, ← split, List.drop_left]

theorem split_lexeme : (text.drop k).take lexeme.length = lexeme := by
  rw [← split, List.take_left]

theorem split_position : (Position.start.after (text.take k)).after lexeme =
    Position.start.after (text.take (k + lexeme.length)) := by
  rw [List.take_add, split_lexeme split, Position.after_append]

theorem split_inside (inside : k ≤ text.length) : k + lexeme.length ≤ text.length := by
  have total := congrArg List.length split
  simp only [List.length_append, List.length_drop] at total
  omega

theorem Outcome.space {r : Except Failure Output} {c : Char} (taken : lexeme = [c])
    (space : isSpace c = true) (later : Outcome text (k + 1) r) : Outcome text k r := by
  have there : text[k]? = some c := by
    rw [← List.head?_drop, ← split, taken]
    rfl
  cases r with
  | ok out =>
    obtain ⟨stop, pieces, laid, firm, tokens⟩ := later
    exact ⟨stop, pieces, laid.space there space, firm, tokens⟩
  | error failure =>
    obtain ⟨o, pieces, d, rest, after, laid, firm, found⟩ := later
    exact ⟨o, pieces, d, rest, by omega, laid.space there space, firm, found⟩

theorem Outcome.comment {r : Except Failure Output} (inside : k ≤ text.length)
    (comment : (IsLineComment lexeme ∧ (tail = [] ∨ tail.head? = some '\n')) ∨
      IsBlockComment lexeme)
    (later : Outcome text (k + lexeme.length) r) : Outcome text k r := by
  have proper (last : Nat) (ends : tail = [] → k + lexeme.length = last) :
      (Piece.comment lexeme).Proper text last k := by
    rcases comment with ⟨line, closed⟩ | block
    · refine Or.inr ⟨line, ?_⟩
      rw [← List.head?_drop, ← split_tail split]
      exact closed.imp_left ends
    · exact Or.inl block
  cases r with
  | ok out =>
    obtain ⟨stop, pieces, laid, firm, tokens⟩ := later
    have ends : tail = [] → k + lexeme.length = text.length := by
      intro nothing
      have total := congrArg List.length split
      simp [nothing] at total
      omega
    refine ⟨stop, _, laid.cons (split_inside split inside) (split_lexeme split) (proper _ ends), ?_,
      tokens⟩
    exact List.forall_mem_cons.mpr ⟨nofun, firm⟩
  | error failure =>
    obtain ⟨o, pieces, d, rest, after, laid, firm, found, fault⟩ := later
    have ends : tail = [] → k + lexeme.length = o := by
      intro nothing
      rw [split_tail split, List.drop_eq_nil_iff] at nothing
      have some_left := congrArg List.length found
      simp at some_left
      omega
    refine ⟨o, (k, .comment lexeme) :: pieces, d, rest, by omega,
      laid.cons after (split_lexeme split) (proper _ ends), ?_, found, fault⟩
    exact List.forall_mem_cons.mpr ⟨nofun, firm⟩

theorem Outcome.token {r : Except Failure Output} {kind : Token.Kind} (inside : k ≤ text.length)
    (firm : Firm lexeme) (some_char : lexeme ≠ []) (later : Outcome text (k + lexeme.length) r) :
    Outcome text k (r.map (.add ⟨kind, lexeme, Position.start.after (text.take k)⟩)) := by
  have proper (last : Nat) :
      (Piece.token ⟨kind, lexeme, Position.start.after (text.take k)⟩).Proper text last k :=
    ⟨some_char, rfl⟩
  have this_firm : ∀ t, Piece.token ⟨kind, lexeme, Position.start.after (text.take k)⟩ = .token t →
      Firm t.lexeme := by
    rintro t ⟨⟩
    exact firm
  cases r with
  | ok out =>
    obtain ⟨stop, pieces, laid, all_firm, tokens⟩ := later
    refine ⟨stop, _, laid.cons (split_inside split inside) (split_lexeme split) (proper _),
      List.forall_mem_cons.mpr ⟨this_firm, all_firm⟩, ?_⟩
    simp [Piece.token?, Output.add, tokens]
  | error failure =>
    obtain ⟨o, pieces, d, rest, after, laid, all_firm, found⟩ := later
    exact ⟨o, (k, .token ⟨kind, lexeme, Position.start.after (text.take k)⟩) :: pieces, d, rest,
      by omega, laid.cons after (split_lexeme split) (proper _),
      List.forall_mem_cons.mpr ⟨this_firm, all_firm⟩, found⟩

end Step

theorem tokens_outcome (text : List Char) (k : Nat) (inside : k ≤ text.length) :
    Outcome text k (tokens (Position.start.after (text.take k)) (text.drop k)) := by
  induction h : text.length - k using Nat.strongRecOn generalizing k with
  | ind n ih =>
    cases left : text.drop k with
    | nil =>
      have last : k = text.length := by
        rw [List.drop_eq_nil_iff] at left
        omega
      subst last
      rw [tokens_nil]
      exact ⟨by simp, [], laid_nil text _, by simp [AllFirm], rfl⟩
    | cons c cs =>
      have later (lexeme tail : List Char) (whole : (munch c cs).whole = some (lexeme, tail)) :
          lexeme ++ tail = text.drop k ∧ Outcome text (k + lexeme.length)
            (tokens ((Position.start.after (text.take k)).after lexeme) tail) := by
        have split : lexeme ++ tail = text.drop k := (munch_append whole).trans left.symm
        have some_char := List.length_pos_iff.mpr (munch_nonempty whole)
        have further := split_inside split inside
        refine ⟨split, ?_⟩
        rw [split_position split, split_tail split]
        exact ih (text.length - (k + lexeme.length)) (by omega) _ further rfl
      rw [tokens_cons]
      cases taken : munch c cs with
      | fault cause =>
        exact ⟨k, [], c, cs, Nat.le_refl k, laid_nil text k, by simp [AllFirm], left, taken, rfl⟩
      | token kind lexeme tail =>
        obtain ⟨split, rest⟩ := later lexeme tail (by rw [taken]; rfl)
        exact rest.token split inside (munch_firm taken) (munch_nonempty (by rw [taken]; rfl))
      | skip lexeme tail =>
        obtain ⟨split, rest⟩ := later lexeme tail (by rw [taken]; rfl)
        rcases munch_skip taken with ⟨single, space⟩ | comment
        · subst single
          exact rest.space split rfl space
        · exact rest.comment split inside comment

theorem slice_congr {source : List Char} {o n : Nat}
    (same : ∀ i, o ≤ i → i < o + n → text[i]? = source[i]?) :
    (text.drop o).take n = (source.drop o).take n := by
  apply List.ext_getElem?
  intro i
  by_cases inside : i < n
  · rw [List.getElem?_take_of_lt inside, List.getElem?_take_of_lt inside, List.getElem?_drop,
      List.getElem?_drop, same (o + i) (by omega) (by omega)]
  · rw [List.getElem?_take_eq_none (by omega), List.getElem?_take_eq_none (by omega)]

theorem firm_of_blockComment {cs : List Char} (block : IsBlockComment cs) : Firm cs := by
  obtain ⟨body, rfl, _⟩ := block
  exact ⟨⟨'/', rfl, by decide⟩, ⟨'/', by simp [List.getLast?_cons], by decide⟩⟩

def Piece.clip (n : Nat) : Piece → Piece
  | token t => token t
  | comment chars => comment (chars.take n)

theorem clip_token? (n : Nat) (piece : Piece) : (piece.clip n).token? = piece.token? := by
  cases piece <;> rfl

/-- The piece at the place ends before `stop`, or is a comment that ends with its line and starts
    before `stop`. -/
def Piece.Clippable (stop o : Nat) (piece : Piece) : Prop :=
  o + piece.chars.length ≤ stop ∨
    ∃ body, piece = .comment ('/' :: '/' :: body) ∧ '\n' ∉ body ∧ o + 2 ≤ stop

theorem clip_chars {stop o : Nat} {piece : Piece} (clippable : piece.Clippable stop o) :
    (piece.clip (stop - o)).chars = piece.chars.take (stop - o) := by
  cases piece with
  | comment cs => rfl
  | token t =>
    rcases clippable with fits | ⟨body, shape, _⟩
    · rw [List.take_of_length_le (by omega)]
      rfl
    · cases shape

section Block

variable {source : List Char} (done : isolateBlock source = .ok text)

include done

theorem visible_inside {o i : Nat} {cs : List Char} {c : Char}
    (there : (text.drop o).take cs.length = cs) (char : cs[i]? = some c)
    (visible : isSpace c = false) : (bounds source).1 ≤ o + i ∧ o + i < (bounds source).2 := by
  have short := (List.getElem?_eq_some_iff.mp char).1
  rw [← there, List.getElem?_take_of_lt short, List.getElem?_drop] at char
  exact inside_of_visible done char visible

theorem firm_inside {o : Nat} {cs : List Char} (there : (text.drop o).take cs.length = cs)
    (firm : Firm cs) :
    (bounds source).1 ≤ o ∧ 0 < cs.length ∧ o + cs.length ≤ (bounds source).2 := by
  obtain ⟨⟨c, head, visible⟩, ⟨d, last, visible'⟩⟩ := firm
  rw [List.head?_eq_getElem?] at head
  rw [List.getLast?_eq_getElem?] at last
  have some_char := (List.getElem?_eq_some_iff.mp head).1
  have starts := visible_inside done there head visible
  have ends := visible_inside done there last visible'
  omega

theorem clippable_of_there {last o : Nat} {piece : Piece}
    (there : (text.drop o).take piece.chars.length = piece.chars)
    (fits : o + piece.chars.length ≤ last) (firm : ∀ t, piece = .token t → Firm t.lexeme)
    (proper : piece.Proper text last o) :
    (bounds source).1 ≤ o ∧ o < min last (bounds source).2 ∧
      piece.Clippable (min last (bounds source).2) o := by
  have solid (firm : Firm piece.chars) : (bounds source).1 ≤ o ∧ o < min last (bounds source).2 ∧
      piece.Clippable (min last (bounds source).2) o := by
    have inside := firm_inside done there firm
    exact ⟨by omega, by omega, Or.inl (by omega)⟩
  cases piece with
  | token t => exact solid (firm t rfl)
  | comment cs =>
    rcases proper with block | ⟨⟨body, rfl, one⟩, _⟩
    · exact solid (firm_of_blockComment block)
    · have starts := visible_inside done (i := 0) there rfl (by decide)
      have second := visible_inside done (i := 1) there rfl (by decide)
      have long : 2 ≤ (Piece.comment ('/' :: '/' :: body)).chars.length := by simp [Piece.chars]
      exact ⟨by omega, by omega, Or.inr ⟨body, rfl, one, by omega⟩⟩

theorem clip_proper {last o : Nat} {piece : Piece} (first : (bounds source).1 ≤ o)
    (fits : o + piece.chars.length ≤ last)
    (clippable : piece.Clippable (min last (bounds source).2) o)
    (proper : piece.Proper text last o) :
    (piece.clip (min last (bounds source).2 - o)).Proper source (min last (bounds source).2) o := by
  generalize limit : min last (bounds source).2 = stop at clippable ⊢
  cases piece with
  | token t => exact ⟨proper.1, by rw [proper.2, isolateBlock_position done]⟩
  | comment cs =>
    change o + cs.length ≤ last at fits
    by_cases ends : o + cs.length ≤ stop
    · -- the comment stays whole
      have whole : (Piece.comment cs).clip (stop - o) = .comment cs := by
        rw [Piece.clip, List.take_of_length_le (by omega)]
      rw [whole]
      refine proper.imp_right fun line => ⟨line.1, ?_⟩
      by_cases touches : o + cs.length = stop
      · exact Or.inl touches
      · refine Or.inr ?_
        rw [← isolateBlock_inside done (by omega) (by omega)]
        exact line.2.resolve_left (by omega)
    · -- only a comment that ends with its line goes on after the block
      rcases clippable with whole | ⟨body, shape, one, second⟩
      · exact absurd whole ends
      · cases shape
        obtain ⟨n, two⟩ : ∃ n, stop - o = n + 2 := ⟨stop - o - 2, by omega⟩
        refine Or.inr ⟨⟨body.take n, ?_, fun feed => one (List.mem_of_mem_take feed)⟩, Or.inl ?_⟩
        · rw [two]
          rfl
        · rw [List.length_take]
          omega

theorem Laid.clip {last : Nat} (laid : Laid text 0 last pieces) (firm : AllFirm pieces) :
    Laid source (bounds source).1 (min last (bounds source).2)
      (pieces.map fun q => (q.1, q.2.clip (min last (bounds source).2 - q.1))) := by
  have each : ∀ q ∈ pieces, (bounds source).1 ≤ q.1 ∧ q.1 < min last (bounds source).2 ∧
      q.2.Clippable (min last (bounds source).2) q.1 := fun q listed =>
    clippable_of_there done (laid.there q listed) (laid.inside q listed).2 (firm q listed)
      (laid.proper q listed)
  constructor
  case inside =>
    intro r listed
    obtain ⟨q, member, rfl⟩ := List.mem_map.mp listed
    obtain ⟨first, early, clippable⟩ := each q member
    dsimp only
    rw [clip_chars clippable, List.length_take]
    omega
  case there =>
    intro r listed
    obtain ⟨q, member, rfl⟩ := List.mem_map.mp listed
    obtain ⟨first, early, clippable⟩ := each q member
    dsimp only
    rw [clip_chars clippable, List.length_take, ← slice_congr fun i starts ends =>
      isolateBlock_inside done (by omega) (by omega), ← List.take_take, laid.there q member]
  case proper =>
    intro r listed
    obtain ⟨q, member, rfl⟩ := List.mem_map.mp listed
    obtain ⟨first, _, clippable⟩ := each q member
    exact clip_proper done first (laid.inside q member).2 clippable (laid.proper q member)
  case apart =>
    rw [List.pairwise_map]
    refine laid.apart.imp_of_mem fun {a b} member _ before => ?_
    dsimp only
    rw [clip_chars (each a member).2.2, List.length_take]
    omega
  case blank =>
    intro i c first early there free
    have same := isolateBlock_inside done first (by omega)
    refine laid.blank i c (Nat.zero_le i) (by omega) (same.trans there) ?_
    intro q member covered
    refine free _ (List.mem_map_of_mem member) ?_
    dsimp only
    rw [clip_chars (each q member).2.2, List.length_take]
    omega

end Block

theorem visible_of_fault {c : Char} {cs : List Char} {cause : Fault}
    (failed : munch c cs = .fault cause) : isSpace c = false := by
  rw [Bool.eq_false_iff]
  intro space
  simp [munch, space] at failed

/-- Where the tokens of a text lie. The end comes after the whole text, and every token stands where
    its position says; tokens and comments lie in the part that is read, in order and without
    overlap, and everything else in that part is white space. A failure lies where the first opening
    tag stands, if it is never closed, or where a token or comment begins that cannot be read, after
    pieces and white space only. -/
theorem read_lays_out_the_text (source : List Char) :
    match read source with
    | .ok out => out.stop = Position.start.after source ∧
        ∃ pieces, Laid source (bounds source).1 (bounds source).2 pieces ∧
          out.tokens = pieces.filterMap (·.2.token?)
    | .error failure => ∃ o, failure.position = Position.start.after (source.take o) ∧
        (failure.fault = .unclosedBlock ∧
          openingTag <+: (source.map Char.toLower).drop o ∧
          (∀ i < o, ¬ openingTag <+: (source.map Char.toLower).drop i) ∧
          (∀ i, o + openingTag.length ≤ i → ¬ closingTag <+: (source.map Char.toLower).drop i) ∨
        ∃ text pieces c rest, isolateBlock source = .ok text ∧
          Laid source (bounds source).1 o pieces ∧ o < (bounds source).2 ∧
          source[o]? = some c ∧ text.drop o = c :: rest ∧ munch c rest = .fault failure.fault) := by
  unfold read
  cases isolated : isolateBlock source with
  | error failure =>
    obtain ⟨opening, opened, unclosed, rfl⟩ := isolateBlock_error isolated
    obtain ⟨_, there, before⟩ := Text.find?_some opened
    refine ⟨opening, rfl, Or.inl ⟨rfl, there, ?_, fun i late => Text.find?_none unclosed late⟩⟩
    exact fun i early => before i (Nat.zero_le i) early
  | ok text =>
    have outcome := tokens_outcome text 0 (Nat.zero_le _)
    change Outcome text 0 (tokens .start text) at outcome
    dsimp only
    cases run : tokens .start text with
    | ok out =>
      rw [run] at outcome
      obtain ⟨stop, pieces, laid, firm, tokens⟩ := outcome
      have clipped := laid.clip isolated firm
      rw [isolateBlock_length isolated, Nat.min_eq_right (bounds_le source)] at clipped
      refine ⟨?_, _, clipped, ?_⟩
      · have same := isolateBlock_position isolated .start source.length
        rwa [← isolateBlock_length isolated, List.take_length, isolateBlock_length isolated,
          List.take_length, ← stop] at same
      · rw [tokens, List.filterMap_map]
        congr 1
        funext q
        exact (clip_token? _ q.2).symm
    | error failure =>
      rw [run] at outcome
      obtain ⟨o, pieces, c, rest, _, laid, firm, left, fault, position⟩ := outcome
      have there : text[o]? = some c := by rw [← List.head?_drop, left]; rfl
      have inside := inside_of_visible isolated there (visible_of_fault fault)
      have clipped := laid.clip isolated firm
      rw [Nat.min_eq_left (by omega)] at clipped
      refine ⟨o, by rw [position, isolateBlock_position isolated], Or.inr ?_⟩
      refine ⟨text, _, c, rest, rfl, clipped, inside.2, ?_, left, fault⟩
      rw [← isolateBlock_inside isolated inside.1 inside.2, there]

end FlowScript.Lexer
