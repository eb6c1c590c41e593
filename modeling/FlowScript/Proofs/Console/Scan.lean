import FlowScript.Console.Completeness
import FlowScript.Proofs.Grammar.Brackets
import FlowScript.Proofs.Lexer.Layout

/-!
The scan for open ends beside the reading of tokens. Main statement: both see the same texts,
comments and brackets. Where a text or a comment never ends, more input is wanted; where all tokens
can be read, the scan ends outside of both, and its depths count the brackets among the tokens.
-/
namespace FlowScript.Console

open Lexer Grammar
open Token (Kind)

variable {d : Depths} {c : Char} {cs rest : List Char}

/-- What the scan comes to: whether a text or a comment is open, and how deep the brackets are. -/
def verdict (mode : Mode) (d : Depths) (cs : List Char) : Bool × Depths :=
  ((scan mode d cs).1.isOpen, (scan mode d cs).2)

theorem isQuote_iff : isQuote c = true ↔ c = '"' ∨ c = '\x27' := by
  simp [isQuote]

theorem scan_code (plain : ∀ e ∈ cs.head?, c = '/' → e ≠ '/' ∧ e ≠ '*') :
    scan .code d (c :: cs) =
      if isQuote c then scan (.text c) d cs else scan .code (d.count c) cs := by
  rw [scan]
  · simp only [isQuote_iff]
  · rintro rest rfl rfl
    exact (plain '/' rfl rfl).1 rfl
  · rintro rest rfl rfl
    exact (plain '*' rfl rfl).2 rfl

def marks : List Char := ['/', '"', '\x27', '(', ')', '\x7b', '\x7d', '[', ']']

theorem not_mem_of_test {P : Char → Bool} {listed : List Char} (none : listed.any P = false)
    (holds : P c = true) : c ∉ listed := by
  intro member
  rw [List.any_eq_false] at none
  exact none c member holds

theorem count_of_not_mark (inert : c ∉ marks) : d.count c = d := by
  unfold Depths.count
  split
  case h_7 => rfl
  all_goals exact absurd (by decide) inert

theorem scan_inert (inert : c ∉ marks) : scan .code d (c :: cs) = scan .code d cs := by
  have quote : isQuote c = false := by
    rw [Bool.eq_false_iff]
    intro quote
    rcases isQuote_iff.mp quote with rfl | rfl <;> exact inert (by decide)
  rw [scan_code, if_neg (by simp [quote]), count_of_not_mark inert]
  rintro e - rfl
  exact absurd (by decide) inert

theorem scan_inert_append {lexeme : List Char} (inert : ∀ c ∈ lexeme, c ∉ marks) :
    scan .code d (lexeme ++ rest) = scan .code d rest := by
  induction lexeme with
  | nil => rfl
  | cons c more ih =>
    rw [List.forall_mem_cons] at inert
    rw [List.cons_append, scan_inert inert.1, ih inert.2]

theorem scan_text {quote : Char} (isquote : isQuote quote = true) (d : Depths) (cs : List Char) :
    match textBody? quote cs with
    | some (_, _, rest) => scan (.text quote) d cs = scan .code d rest
    | none => (scan (.text quote) d cs).1.isOpen = true := by
  have escape : '\\' ≠ quote := by
    rintro rfl
    exact absurd isquote (by decide)
  fun_induction textBody? quote cs with
  | case1 =>
    rw [scan]
    rfl
  | case2 c rest ih =>
    have twice : scan (.text quote) d ('\\' :: c :: rest) = scan (.text quote) d rest := by
      rw [scan, if_pos rfl, scan]
    rw [twice]
    cases body : textBody? quote rest <;> rw [body] at ih <;> exact ih
  | case3 rest _ => rw [scan, if_neg escape.symm, if_pos rfl]
  | case4 c rest other apart ih =>
    by_cases backslash : c = '\\'
    · -- a backslash with nothing after it
      cases rest with
      | nil =>
        rw [scan, if_pos backslash, scan]
        rfl
      | cons e more => exact absurd rfl (other e more backslash)
    · rw [scan, if_neg backslash, if_neg apart]
      cases body : textBody? quote rest <;> rw [body] at ih <;> exact ih

theorem scan_comment (d : Depths) (cs : List Char) :
    match commentBody? cs with
    | some (_, rest) => scan .blockComment d cs = scan .code d rest
    | none => (scan .blockComment d cs).1.isOpen = true := by
  fun_induction commentBody? cs with
  | case1 =>
    rw [scan]
    rfl
  | case2 rest => rw [scan]
  | case3 c rest other ih =>
    rw [scan]
    · cases body : commentBody? rest <;> rw [body] at ih <;> exact ih
    · exact other

/-- A comment that ends with its line leaves nothing open, also at the end of the text. -/
theorem verdict_lineComment (d : Depths) (cs : List Char) :
    verdict .lineComment d cs = verdict .code d (cs.dropWhile notLineFeed) := by
  induction cs with
  | nil => simp [verdict, scan, Mode.isOpen]
  | cons c rest ih =>
    by_cases feed : c = '\n'
    · subst feed
      have ends : scan .lineComment d ('\n' :: rest) = scan .code d ('\n' :: rest) := by
        rw [scan_inert (by decide), scan, if_pos rfl]
      rw [List.dropWhile_cons_of_neg (by decide), verdict, ends, verdict]
    · rw [List.dropWhile_cons_of_pos (by simpa [notLineFeed] using feed), ← ih, verdict, verdict,
        scan, if_neg feed]

def Depths.plus (d : Depths) (ks : List Kind) : Depths :=
  ⟨d.paren + net .leftParen .rightParen ks, d.brace + net .leftBrace .rightBrace ks,
    d.bracket + net .leftBracket .rightBracket ks⟩

theorem plus_nil (d : Depths) : d.plus [] = d := by
  simp [Depths.plus, net]

theorem plus_cons (d : Depths) (k : Kind) (ks : List Kind) :
    d.plus (k :: ks) = (d.plus [k]).plus ks := by
  simp only [Depths.plus, net_cons _ _ k ks, Int.add_assoc]

theorem plus_word {k : Kind} (word : ∀ s, k ≠ .symbol s) : d.plus [k] = d := by
  cases k with
  | symbol s => exact absurd rfl (word s)
  | _ => simp [Depths.plus, net, isSymbol]

theorem plus_ofChar? {s : Symbol} (symbol : Symbol.ofChar? c = some s) :
    d.count c = d.plus [.symbol s] := by
  unfold Symbol.ofChar? at symbol
  split at symbol <;> cases symbol <;>
    simp [Depths.count, Depths.plus, net, isSymbol, Int.sub_eq_add_neg]

theorem plus_ofPair? {e : Char} {s : Symbol} (symbol : Symbol.ofPair? c e = some s) :
    d.plus [.symbol s] = d ∧ ∀ a ∈ [c, e], a ∉ marks := by
  unfold Symbol.ofPair? at symbol
  split at symbol <;> cases symbol <;>
    exact ⟨by simp [Depths.plus, net, isSymbol], by simp [marks]⟩

/-- A munch of `cs` and the scan of `cs` go the same way. -/
def Agree (d : Depths) (cs : List Char) : Munch → Prop
  | .token kind _ rest => verdict .code d cs = verdict .code (d.plus [kind]) rest
  | .skip _ rest => verdict .code d cs = verdict .code d rest
  | .fault cause => cause = .unterminatedText ∨ cause = .unterminatedComment →
      (verdict .code d cs).1 = true

theorem agree_token {kind : Kind} {lexeme : List Char}
    (same : scan .code d cs = scan .code (d.plus [kind]) rest) :
    Agree d cs (.token kind lexeme rest) := by
  simp only [Agree, verdict, same]

theorem munchChar_agree (plain : ∀ e ∈ cs.head?, c = '/' → e ≠ '/' ∧ e ≠ '*') :
    Agree d (c :: cs) (munchChar c cs) := by
  unfold munchChar
  cases symbol : Symbol.ofChar? c with
  | none => rintro (cause | cause) <;> cases cause
  | some s =>
    have quote : isQuote c = false := by
      rw [Bool.eq_false_iff]
      intro quote
      rcases isQuote_iff.mp quote with rfl | rfl <;> cases symbol
    apply agree_token
    rw [scan_code plain, if_neg (by simp [quote]), plus_ofChar? symbol]

theorem munchSymbol_agree (plain : ∀ e ∈ cs.head?, c = '/' → e ≠ '/' ∧ e ≠ '*') :
    Agree d (c :: cs) (munchSymbol c cs) := by
  unfold munchSymbol
  split
  · exact munchChar_agree plain
  · rename_i e rest
    cases symbol : Symbol.ofPair? c e with
    | none => exact munchChar_agree plain
    | some s =>
      obtain ⟨neutral, inert⟩ := plus_ofPair? (d := d) symbol
      have passed : scan .code d ([c, e] ++ rest) = scan .code d rest := scan_inert_append inert
      apply agree_token
      rw [neutral]
      exact passed

theorem munchSlash_agree (d : Depths) (cs : List Char) : Agree d ('/' :: cs) (munchSlash cs) := by
  unfold munchSlash
  split
  · rename_i rest
    change verdict .code d ('/' :: '/' :: rest) = _
    rw [List.dropWhile_cons_of_pos (by decide), ← verdict_lineComment, verdict, verdict, scan]
  · rename_i rest
    have opened : scan .code d ('/' :: '*' :: rest) = scan .blockComment d rest := by rw [scan]
    have inside := scan_comment d rest
    unfold munchComment
    cases body : commentBody? rest with
    | none =>
      rw [body] at inside
      intro _
      rw [verdict, opened]
      exact inside
    | some parts =>
      rw [body] at inside
      change verdict .code d ('/' :: '*' :: rest) = _
      rw [verdict, verdict, opened, inside]
  · rename_i no_line no_block
    apply munchSymbol_agree
    intro e first _
    cases cs with
    | nil => cases first
    | cons a more =>
      cases first
      constructor
      · rintro rfl
        exact no_line more rfl
      · rintro rfl
        exact no_block more rfl

theorem munchText_agree (isquote : isQuote c = true) : Agree d (c :: cs) (munchText c cs) := by
  have opened : scan .code d (c :: cs) = scan (.text c) d cs := by
    rw [scan_code, if_pos isquote]
    rintro e - rfl
    exact absurd isquote (by decide)
  have inside := scan_text isquote d cs
  unfold munchText
  cases body : textBody? c cs with
  | none =>
    rw [body] at inside
    intro _
    rw [verdict, opened]
    exact inside
  | some parts =>
    rw [body] at inside
    apply agree_token
    rw [opened, inside, plus_word (k := .text _) (by simp)]

theorem agree_word {kind : Kind} {lexeme : List Char} (whole : lexeme ++ rest = cs)
    (inert : ∀ a ∈ lexeme, a ∉ marks) (word : ∀ s, kind ≠ .symbol s) :
    Agree d cs (.token kind lexeme rest) := by
  apply agree_token
  rw [plus_word word, ← whole, scan_inert_append inert]

theorem munchGlobal_agree (d : Depths) (cs : List Char) :
    Agree d ('$' :: cs) (munchGlobal cs) := by
  unfold munchGlobal
  split
  · rintro (cause | cause) <;> cases cause
  · rename_i first more name
    apply agree_word
    · rw [← name, List.cons_append, List.takeWhile_append_dropWhile]
    · rw [List.forall_mem_cons, ← name]
      refine ⟨by decide, fun a member => ?_⟩
      exact not_mem_of_test (by decide) (List.mem_takeWhile_imp member)
    · simp

theorem munchNumber_agree (first : isNumeralPart c = true) :
    Agree d (c :: cs) (munchNumber c cs) := by
  unfold munchNumber
  dsimp only
  split
  · apply agree_word (numeral_append c cs)
    · exact fun a member => not_mem_of_test (by decide) (numeral_numeralPart first cs a member)
    · simp
  · rintro (cause | cause) <;> cases cause

theorem munchName_agree (start : isNameStart c = true) :
    Agree d (c :: cs) (munchName c cs) := by
  apply agree_word
  · rw [List.cons_append, List.takeWhile_append_dropWhile]
  · exact fun a member => not_mem_of_test (by decide) (name_parts start cs a member)
  · exact nameKind_ne_symbol _

theorem munch_agree (d : Depths) (c : Char) (cs : List Char) :
    Agree d (c :: cs) (munch c cs) := by
  unfold munch
  split
  · rename_i space
    have inert : c ∉ marks := not_mem_of_test (by decide) space
    simp only [Agree, verdict, scan_inert inert]
  split
  · rename_i slash
    subst slash
    exact munchSlash_agree d cs
  split
  · rename_i isquote
    exact munchText_agree isquote
  split
  · rename_i dollar
    subst dollar
    exact munchGlobal_agree d cs
  split
  · rename_i start
    exact munchNumber_agree (numeralPart_of_start start)
  split
  · rename_i start
    exact munchName_agree start
  · rename_i slash _ _ _ _
    exact munchSymbol_agree fun e _ same => absurd same slash

def Explains (d : Depths) (cs : List Char) : Except Failure Lexer.Output → Prop
  | .ok out => verdict .code d cs = (false, d.plus (out.tokens.map (·.kind)))
  | .error failure => failure.fault = .unterminatedText ∨ failure.fault = .unterminatedComment →
      (verdict .code d cs).1 = true

theorem tokens_explain (p : Position) (d : Depths) (cs : List Char) :
    Explains d cs (tokens p cs) := by
  fun_induction tokens p cs generalizing d with
  | case1 p => simp [Explains, verdict, scan, Mode.isOpen, plus_nil]
  | case2 p c rest kind lexeme tail taken out read ih =>
    have agree := munch_agree d c rest
    have explained := ih (d.plus [kind])
    rw [taken] at agree
    rw [read] at explained
    change verdict .code d (c :: rest) = (false, d.plus (kind :: out.tokens.map (·.kind)))
    rw [plus_cons, agree]
    exact explained
  | case3 p c rest kind lexeme tail taken failure read ih =>
    have agree := munch_agree d c rest
    have explained := ih (d.plus [kind])
    rw [taken] at agree
    rw [read] at explained
    intro cause
    rw [agree]
    exact explained cause
  | case4 p c rest lexeme tail taken ih =>
    have agree := munch_agree d c rest
    rw [taken] at agree
    unfold Explains
    rw [agree]
    exact ih d
  | case5 p c rest cause taken =>
    have agree := munch_agree d c rest
    rw [taken] at agree
    exact agree

theorem needsMoreInput_eq (source : List Char) :
    needsMoreInput source = ((verdict .code .zero source).1 ||
      (verdict .code .zero source).2.isOpen || endsOpen (Text.trimEnd source).reverse) := rfl

theorem verdict_of_read {source : List Char}
    (untagged : ¬ openingTag <:+: source.map Char.toLower) :
    Explains .zero source (Lexer.read source) := by
  rw [Lexer.read, isolateBlock_of_tag_free untagged]
  exact tokens_explain .start .zero source

theorem zero_plus (ks : List Kind) : Depths.zero.plus ks =
    ⟨net .leftParen .rightParen ks, net .leftBrace .rightBrace ks,
      net .leftBracket .rightBracket ks⟩ := by
  simp [Depths.plus, Depths.zero]

theorem isOpen_zero_plus {ks : List Kind} :
    (Depths.zero.plus ks).isOpen = true ↔ ∃ p ∈ brackets, 0 < net p.1 p.2 ks := by
  simp [zero_plus, Depths.isOpen, brackets, or_assoc]

/-- A text without tags. The scan finds the texts and comments that the lexer finds, open ones
    too, and counts the brackets that are tokens. -/
theorem scan_agrees_with_the_tokens {source : List Char}
    (untagged : ¬ openingTag <:+: source.map Char.toLower) :
    match Lexer.read source with
    | .error failure =>
        failure.fault = .unterminatedText ∨ failure.fault = .unterminatedComment →
          needsMoreInput source = true
    | .ok out =>
        (scan .code .zero source).1.isOpen = false ∧
        (scan .code .zero source).2 =
          ⟨net .leftParen .rightParen (out.tokens.map (·.kind)),
            net .leftBrace .rightBrace (out.tokens.map (·.kind)),
            net .leftBracket .rightBracket (out.tokens.map (·.kind))⟩ ∧
        ((∃ p ∈ brackets, 0 < net p.1 p.2 (out.tokens.map (·.kind))) →
          needsMoreInput source = true) := by
  have explained := verdict_of_read untagged
  cases result : Lexer.read source with
  | error failure =>
    rw [result] at explained
    intro cause
    rw [needsMoreInput_eq, explained cause]
    rfl
  | ok out =>
    rw [result] at explained
    have same : verdict .code .zero source =
        (false, Depths.zero.plus (out.tokens.map (·.kind))) := explained
    obtain ⟨closed, depths⟩ := Prod.mk.inj same
    refine ⟨closed, ?_, ?_⟩
    · rw [depths, zero_plus]
    · intro unclosed
      rw [needsMoreInput_eq, same, isOpen_zero_plus.mpr unclosed]
      rfl

theorem scan_agrees_with_the_tokens_call :
    ¬ openingTag <:+: "f('/*)'".toList.map Char.toLower ∧
    (scan .code .zero "f('/*)'".toList).2 = ⟨1, 0, 0⟩ ∧ needsMoreInput "f('/*)'".toList = true := by
  have untagged : ¬ openingTag <:+: "f('/*)'".toList.map Char.toLower := by
    decide +kernel
  have agrees := scan_agrees_with_the_tokens untagged
  have result : Lexer.read "f('/*)'".toList = .ok ⟨[⟨.name "f", ['f'], ⟨1, 1⟩⟩,
      ⟨.symbol .leftParen, ['('], ⟨1, 2⟩⟩,
      ⟨.text "/*)", "'/*)'".toList, ⟨1, 3⟩⟩], ⟨1, 8⟩⟩ := by
    with_unfolding_all rfl
  rw [result] at agrees
  exact ⟨untagged, agrees.2.1, agrees.2.2 ⟨_, List.mem_cons_self, by decide⟩⟩

end FlowScript.Console
