import FlowScript.Proofs.Lexer.Layout

/-!
A block stands on its own. Around it the lexer finds white space only, and white space ends a token,
a text or a comment just as the end of the text does. Main statement: a text with a block is read
like the block by itself, with all positions moved to where the block lies.
-/
namespace FlowScript

namespace Position

/-- A place of a text that lies in a longer one, as a place of the longer one. The first begins at
    `origin`, so only its first line has other columns. -/
def shift (origin p : Position) : Position :=
  if p.line = 1 then ⟨origin.line, origin.column + (p.column - 1)⟩
  else ⟨origin.line + (p.line - 1), p.column⟩

/-- Lines and columns count from one. -/
def Counted (p : Position) : Prop := 1 ≤ p.line ∧ 1 ≤ p.column

theorem counted_start : start.Counted := ⟨Nat.le_refl 1, Nat.le_refl 1⟩

theorem Counted.step {p : Position} (counted : p.Counted) (c : Char) : (p.step c).Counted := by
  obtain ⟨line, column⟩ := counted
  unfold Position.step
  split
  · exact ⟨Nat.le_add_left 1 p.line, Nat.le_refl 1⟩
  · exact ⟨line, Nat.le_add_left 1 p.column⟩

theorem Counted.after {p : Position} (counted : p.Counted) (cs : List Char) :
    (p.after cs).Counted := by
  induction cs generalizing p with
  | nil => exact counted
  | cons c rest ih => exact ih (counted.step c)

theorem shift_start (origin : Position) : origin.shift start = origin := by
  simp [shift, start]

theorem shift_step (origin : Position) {p : Position} (counted : p.Counted) (c : Char) :
    origin.shift (p.step c) = (origin.shift p).step c := by
  obtain ⟨line, column⟩ := counted
  by_cases feed : c = '\n'
  · have later : p.line + 1 ≠ 1 := by omega
    have below : (origin.shift p).line = origin.line + (p.line - 1) := by
      unfold shift
      split
      · rename_i first
        simp [first]
      · rfl
    simp only [step, feed, ↓reduceIte, below]
    simp only [shift, later, ↓reduceIte, mk.injEq, and_true]
    omega
  · simp only [step, feed, ↓reduceIte, shift]
    split <;> simp only [mk.injEq, true_and]
    omega

theorem shift_after (origin : Position) {p : Position} (counted : p.Counted) (cs : List Char) :
    origin.shift (p.after cs) = (origin.shift p).after cs := by
  induction cs generalizing p with
  | nil => rfl
  | cons c rest ih =>
    change origin.shift ((p.step c).after rest) = ((origin.shift p).step c).after rest
    rw [ih (counted.step c), shift_step origin counted]

end Position

namespace Text

variable {needle cs : List Char}

theorem find?_eq_some {skip i : Nat} (late : skip ≤ i) (here : needle <+: cs.drop i)
    (first : ∀ j, skip ≤ j → j < i → ¬ needle <+: cs.drop j) : find? needle skip cs = some i := by
  cases found : find? needle skip cs with
  | none => exact absurd here (find?_none found late)
  | some k =>
    obtain ⟨after, there, before⟩ := find?_some found
    rcases Nat.lt_trichotomy k i with early | same | behind
    · exact absurd there (first k after early)
    · rw [same]
    · exact absurd here (before i late behind)

theorem no_overlap {x : Char} {xs a rest : List Char} (single : x ∉ xs) (free : ¬ x :: xs <:+: a)
    {j : Nat} (inside : j < a.length) : ¬ x :: xs <+: (a ++ (x :: xs ++ rest)).drop j := by
  rw [List.drop_append_of_le_length (Nat.le_of_lt inside), List.drop_eq_getElem_cons inside,
    List.cons_append, List.cons_prefix_cons]
  rintro ⟨same, tail⟩
  have before := Lexer.prefix_before single (by simpa using tail)
  have here : x :: xs <+: a.drop j := by
    rw [List.drop_eq_getElem_cons inside, List.cons_prefix_cons]
    exact ⟨same, before⟩
  exact free (here.isInfix.trans (List.drop_suffix j a).isInfix)

theorem find?_before {x : Char} {xs a : List Char} (front rest : List Char) (single : x ∉ xs)
    (free : ¬ x :: xs <:+: a) :
    find? (x :: xs) front.length (front ++ (a ++ (x :: xs ++ rest))) =
      some (front.length + a.length) := by
  apply find?_eq_some (Nat.le_add_right _ _)
  · rw [← List.drop_drop, List.drop_left, List.drop_left]
    exact List.prefix_append _ _
  · intro j late early
    obtain ⟨k, rfl⟩ := Nat.exists_eq_add_of_le late
    rw [← List.drop_drop, List.drop_left]
    exact no_overlap single free (by omega)

end Text

namespace Lexer

def Munch.before (more : List Char) : Munch → Munch
  | .token kind lexeme rest => .token kind lexeme (rest ++ more)
  | .skip lexeme rest => .skip lexeme (rest ++ more)
  | .fault cause => .fault cause

/-- How what is taken changes when white space comes after the text. Only a comment at the very end
    of the text changes at all, and goes on to the end of the line. -/
def Munch.GoesOn (blank : List Char) (short long : Munch) : Prop :=
  long = short.before blank ∨
    ∃ lexeme taken left, short = .skip lexeme [] ∧ blank = taken ++ left ∧
      long = .skip (lexeme ++ taken) left

theorem span_before {p : Char → Bool} {more : List Char} (stop : ∀ c ∈ more.head?, p c = false)
    (cs : List Char) : (cs ++ more).takeWhile p = cs.takeWhile p ∧
      (cs ++ more).dropWhile p = cs.dropWhile p ++ more := by
  induction cs with
  | nil =>
    cases more with
    | nil => simp
    | cons d tail => simp [stop d rfl]
  | cons c rest ih => by_cases here : p c = true <;> simp [here, ih]

theorem textBody?_cons {quote c : Char} (plain : c ≠ '\\') (cs : List Char) :
    textBody? quote (c :: cs) =
      if c = quote then some ([], [c], cs)
      else (textBody? quote cs).map fun (value, raw, tail) => (c :: value, c :: raw, tail) := by
  rw [textBody?]
  intro d rest same
  exact absurd same plain

theorem textBody?_before {quote : Char} (solid : quote ≠ '\\') {cs value raw rest : List Char}
    (read : textBody? quote cs = some (value, raw, rest)) (more : List Char) :
    textBody? quote (cs ++ more) = some (value, raw, rest ++ more) := by
  fun_induction textBody? quote cs generalizing value raw rest with
  | case1 => cases read
  | case2 c tail ih =>
    simp only [Option.map_eq_some_iff, Prod.exists, Prod.mk.injEq] at read
    obtain ⟨v, r, t, inner, rfl, rfl, rfl⟩ := read
    simp [textBody?, ih inner]
  | case3 tail _ =>
    cases read
    simp [textBody?_cons solid]
  | case4 c tail other apart ih =>
    simp only [Option.map_eq_some_iff, Prod.exists, Prod.mk.injEq] at read
    obtain ⟨v, r, t, inner, rfl, rfl, rfl⟩ := read
    have plain : c ≠ '\\' := by
      rintro rfl
      cases tail with
      | nil => cases inner
      | cons d more => exact other d more rfl rfl
    simp [textBody?_cons plain, apart, ih inner]

theorem textBody?_unclosed {quote : Char} {cs more : List Char} (free : quote ∉ more)
    (unclosed : textBody? quote cs = none) : textBody? quote (cs ++ more) = none := by
  have nothing (more : List Char) (free : quote ∉ more) : textBody? quote more = none := by
    cases read : textBody? quote more with
    | none => rfl
    | some found =>
      obtain ⟨value, raw, rest⟩ := found
      have last := List.mem_of_getLast? (textBody?_last read)
      exact absurd (textBody?_append read ▸ List.mem_append_left rest last) free
  fun_induction textBody? quote cs with
  | case1 => exact nothing more free
  | case2 c tail ih =>
    rw [Option.map_eq_none_iff] at unclosed
    simp [textBody?, ih unclosed]
  | case3 => cases unclosed
  | case4 c tail other apart ih =>
    rw [Option.map_eq_none_iff] at unclosed
    by_cases plain : c = '\\'
    · subst plain
      cases tail with
      | cons d rest => exact absurd rfl (other d rest rfl)
      | nil =>
        cases more with
        | nil => simp [textBody?, apart]
        | cons d rest =>
          simp [textBody?, nothing rest (List.not_mem_of_not_mem_cons free)]
    · simp [textBody?_cons plain, apart, ih unclosed]

theorem commentBody?_cons {c : Char} {cs : List Char}
    (inside : ∀ rest, c = '*' → cs ≠ '/' :: rest) :
    commentBody? (c :: cs) = (commentBody? cs).map fun (raw, tail) => (c :: raw, tail) := by
  rw [commentBody?]
  exact inside

theorem commentBody?_before {cs raw rest : List Char} (read : commentBody? cs = some (raw, rest))
    (more : List Char) : commentBody? (cs ++ more) = some (raw, rest ++ more) := by
  fun_induction commentBody? cs generalizing raw rest with
  | case1 => cases read
  | case2 tail =>
    cases read
    simp [commentBody?]
  | case3 c tail other ih =>
    simp only [Option.map_eq_some_iff, Prod.exists, Prod.mk.injEq] at read
    obtain ⟨r, t, inner, rfl, rfl⟩ := read
    cases tail with
    | nil => cases inner
    | cons d tail =>
      rw [List.cons_append, commentBody?_cons (by simpa using other), ih inner]
      rfl

theorem commentBody?_unclosed {cs more : List Char} (free : '/' ∉ more)
    (unclosed : commentBody? cs = none) : commentBody? (cs ++ more) = none := by
  have nothing : commentBody? more = none := by
    cases read : commentBody? more with
    | none => rfl
    | some found =>
      obtain ⟨raw, rest⟩ := found
      obtain ⟨body, rfl, _⟩ := commentBody?_first read
      exact absurd (commentBody?_append read ▸ by simp) free
  fun_induction commentBody? cs with
  | case1 => exact nothing
  | case2 => cases unclosed
  | case3 c tail other ih =>
    rw [Option.map_eq_none_iff] at unclosed
    have inside : ∀ rest, c = '*' → tail ++ more ≠ '/' :: rest := by
      intro rest star same
      cases tail with
      | nil => exact free (by simp [show more = '/' :: rest from same])
      | cons d tail => exact other tail star (by simp [(List.cons.inj same).1])
    rw [List.cons_append, commentBody?_cons inside, ih unclosed]
    rfl

section Blank

variable {blank : List Char} (spaces : ∀ c ∈ blank, isSpace c = true)

include spaces

theorem apart_of_spaces {c : Char} (visible : isSpace c = false) : c ∉ blank := by
  intro member
  exact absurd (spaces c member) (by simp [visible])

theorem stop_of_spaces {p : Char → Bool} (visible : ∀ c, p c = true → isSpace c = false) :
    ∀ c ∈ blank.head?, p c = false := by
  intro c first
  rw [Bool.eq_false_iff]
  intro part
  exact apart_of_spaces spaces (visible c part) (List.mem_of_mem_head? first)

theorem startsWithDigit_before (cs : List Char) :
    startsWithDigit (cs ++ blank) = startsWithDigit cs := by
  cases cs with
  | cons c rest => rfl
  | nil =>
    cases blank with
    | nil => rfl
    | cons c rest => exact stop_of_spaces spaces (fun _ => visible_of_digit) c rfl

theorem fractionPart_before (cs : List Char) :
    fractionPart (cs ++ blank) = ((fractionPart cs).1, (fractionPart cs).2 ++ blank) := by
  have digits := span_before (stop_of_spaces spaces fun _ => visible_of_digit)
  have point : '.' ∉ blank := apart_of_spaces spaces (by decide)
  cases cs with
  | nil =>
    cases blank with
    | nil => rfl
    | cons c rest =>
      have other : c ≠ '.' := by
        rintro rfl
        exact point (by simp)
      simp [fractionPart, other]
  | cons c rest =>
    by_cases here : c = '.'
    · subst here
      simp only [List.cons_append, fractionPart, startsWithDigit_before spaces, digits rest]
      split <;> rfl
    · simp [fractionPart, here]

theorem exponentPart_before (cs : List Char) :
    exponentPart (cs ++ blank) = ((exponentPart cs).1, (exponentPart cs).2 ++ blank) := by
  have digits := span_before (stop_of_spaces spaces fun _ => visible_of_digit)
  have mark {c : Char} (part : isNumeralPart c = true) : c ∉ blank :=
    apart_of_spaces spaces (visible_of_numeralPart part)
  match cs with
  | [] =>
    cases blank with
    | nil => rfl
    | cons c rest =>
      have small : c ≠ 'e' := fun same => mark (c := 'e') (by decide) (by simp [same])
      have large : c ≠ 'E' := fun same => mark (c := 'E') (by decide) (by simp [same])
      simp [exponentPart, small, large]
  | [e] =>
    cases blank with
    | nil => simp [exponentPart]
    | cons c rest =>
      have plus : c ≠ '+' := fun same => mark (c := '+') (by decide) (by simp [same])
      have minus : c ≠ '-' := fun same => mark (c := '-') (by decide) (by simp [same])
      have digit : c.isDigit = false := stop_of_spaces spaces (fun _ => visible_of_digit) c rfl
      simp [exponentPart, plus, minus, digit]
  | e :: s :: more =>
    simp only [List.cons_append, exponentPart, startsWithDigit_before spaces, digits more]
    rw [← List.cons_append, (digits (s :: more)).1, (digits (s :: more)).2]
    repeat' split
    all_goals rfl

theorem numeral_before (c : Char) (cs : List Char) :
    numeral c (cs ++ blank) = ((numeral c cs).1, (numeral c cs).2 ++ blank) := by
  obtain ⟨taken, left⟩ := span_before (stop_of_spaces spaces fun _ => visible_of_digit) cs
  simp only [numeral, taken, left, fractionPart_before spaces, exponentPart_before spaces]

theorem munchNumber_before (c : Char) (cs : List Char) :
    munchNumber c (cs ++ blank) = (munchNumber c cs).before blank := by
  simp only [munchNumber, numeral_before spaces]
  split <;> rfl

theorem munchName_before (c : Char) (cs : List Char) :
    munchName c (cs ++ blank) = (munchName c cs).before blank := by
  obtain ⟨taken, left⟩ :=
    span_before (p := isNameRest) (stop_of_spaces spaces fun _ => visible_of_nameRest) cs
  simp only [munchName, taken, left, Munch.before]

theorem munchGlobal_before (cs : List Char) :
    munchGlobal (cs ++ blank) = (munchGlobal cs).before blank := by
  obtain ⟨taken, left⟩ :=
    span_before (p := isNameRest) (stop_of_spaces spaces fun _ => visible_of_nameRest) cs
  simp only [munchGlobal, taken, left]
  cases cs.takeWhile isNameRest <;> rfl

theorem munchText_before {quote : Char} (isquote : isQuote quote = true) (cs : List Char) :
    munchText quote (cs ++ blank) = (munchText quote cs).before blank := by
  have kinds : quote = '"' ∨ quote = '\x27' := by
    simpa [isQuote] using isquote
  have solid : quote ≠ '\\' := by rcases kinds with rfl | rfl <;> decide
  have visible : isSpace quote = false := by rcases kinds with rfl | rfl <;> decide
  unfold munchText
  cases read : textBody? quote cs with
  | none => rw [textBody?_unclosed (apart_of_spaces spaces visible) read]; rfl
  | some found => rw [textBody?_before solid read]; rfl

theorem munchComment_before (cs : List Char) :
    munchComment (cs ++ blank) = (munchComment cs).before blank := by
  unfold munchComment
  cases read : commentBody? cs with
  | none => rw [commentBody?_unclosed (apart_of_spaces spaces (by decide)) read]; rfl
  | some found => rw [commentBody?_before read]; rfl

omit spaces in
theorem munchChar_before (c : Char) (cs : List Char) :
    munchChar c (cs ++ blank) = (munchChar c cs).before blank := by
  unfold munchChar
  split <;> rfl

theorem munchSymbol_before (c : Char) (cs : List Char) :
    munchSymbol c (cs ++ blank) = (munchSymbol c cs).before blank := by
  cases cs with
  | nil =>
    cases blank with
    | nil => exact munchChar_before c []
    | cons d rest =>
      have none : Symbol.ofPair? c d = none := by
        cases found : Symbol.ofPair? c d with
        | none => rfl
        | some s =>
          have part : d ∈ s.spelling := by simp [Symbol.spelling_of_ofPair? found]
          exact absurd (by simp) (apart_of_spaces spaces (visible_of_spelling d part))
      simp only [List.nil_append, munchSymbol, none]
      exact munchChar_before c []
  | cons d rest =>
    simp only [List.cons_append, munchSymbol]
    split
    · rfl
    · exact munchChar_before c (d :: rest)

omit spaces in
theorem lineComment_before (cs : List Char) :
    Munch.GoesOn blank (.skip ('/' :: cs.takeWhile notLineFeed) (cs.dropWhile notLineFeed))
      (.skip ('/' :: (cs ++ blank).takeWhile notLineFeed)
        ((cs ++ blank).dropWhile notLineFeed)) := by
  cases left : cs.dropWhile notLineFeed with
  | nil =>
    have all := List.dropWhile_eq_nil_iff.mp left
    refine .inr ⟨_, blank.takeWhile notLineFeed, blank.dropWhile notLineFeed, rfl,
      (List.takeWhile_append_dropWhile).symm, ?_⟩
    rw [List.takeWhile_append_of_pos all, List.dropWhile_append_of_pos all,
      List.takeWhile_eq_self_iff.mpr all]
    rfl
  | cons d rest =>
    -- a line feed ends the comment before the white space begins
    have short : (cs.takeWhile notLineFeed).length ≠ cs.length := by
      have total := congrArg List.length
        (List.takeWhile_append_dropWhile (p := notLineFeed) (l := cs))
      rw [left, List.length_append, List.length_cons] at total
      omega
    refine .inl ?_
    rw [List.takeWhile_append, if_neg short, List.dropWhile_append, left]
    rfl

omit spaces in
theorem munchSlash_symbol {d : Char} (line : d ≠ '/') (block : d ≠ '*') (rest : List Char) :
    munchSlash (d :: rest) = munchSymbol '/' (d :: rest) := by
  simp [munchSlash, line, block]

theorem munchSlash_before (cs : List Char) :
    Munch.GoesOn blank (munchSlash cs) (munchSlash (cs ++ blank)) := by
  cases cs with
  | nil =>
    have symbol : munchSlash blank = munchSymbol '/' blank := by
      cases blank with
      | nil => rfl
      | cons d rest =>
        have other {c : Char} (visible : isSpace c = false) : d ≠ c := by
          rintro rfl
          exact apart_of_spaces spaces visible (by simp)
        exact munchSlash_symbol (other (by decide)) (other (by decide)) rest
    refine .inl ?_
    rw [List.nil_append, symbol]
    exact munchSymbol_before spaces '/' []
  | cons d rest =>
    by_cases line : d = '/'
    · subst line
      exact lineComment_before ('/' :: rest)
    by_cases block : d = '*'
    · subst block
      exact .inl (munchComment_before spaces rest)
    · refine .inl ?_
      rw [List.cons_append, munchSlash_symbol line block, munchSlash_symbol line block]
      exact munchSymbol_before spaces '/' (d :: rest)

theorem munch_before (c : Char) (cs : List Char) :
    Munch.GoesOn blank (munch c cs) (munch c (cs ++ blank)) := by
  unfold munch
  rw [startsWithDigit_before spaces]
  split
  · exact .inl rfl
  split
  · exact munchSlash_before spaces cs
  refine .inl ?_
  split
  · rename_i isquote
    exact munchText_before spaces isquote cs
  split
  · exact munchGlobal_before spaces cs
  split
  · exact munchNumber_before spaces c cs
  split
  · exact munchName_before spaces c cs
  · exact munchSymbol_before spaces c cs

theorem tokens_spaces (p : Position) (cs : List Char) :
    tokens p (blank ++ cs) = tokens (p.after blank) cs := by
  induction blank generalizing p with
  | nil => rfl
  | cons c rest ih =>
    obtain ⟨here, later⟩ := List.forall_mem_cons.mp spaces
    have skipped : munch c (rest ++ cs) = .skip [c] (rest ++ cs) := by simp [munch, here]
    rw [List.cons_append, tokens_cons, skipped]
    exact ih later _

theorem tokens_only_spaces (p : Position) : tokens p blank = .ok ⟨[], p.after blank⟩ := by
  have whole := tokens_spaces spaces p []
  rwa [List.append_nil, tokens_nil] at whole

theorem tokens_before (p : Position) (cs : List Char) :
    tokens p (cs ++ blank) =
      (tokens p cs).map fun out => { out with stop := p.after (cs ++ blank) } := by
  induction h : cs.length using Nat.strongRecOn generalizing p cs with
  | ind n ih =>
    cases cs with
    | nil => rw [List.nil_append, tokens_only_spaces spaces, tokens_nil]; rfl
    | cons c rest =>
      have later {lexeme tail : List Char} (whole : (munch c rest).whole = some (lexeme, tail)) :
          tokens (p.after lexeme) (tail ++ blank) = (tokens (p.after lexeme) tail).map
            fun out => { out with stop := p.after (c :: rest ++ blank) } := by
        rw [ih tail.length (h ▸ munch_shorter whole) (p.after lexeme) tail rfl,
          ← Position.after_append, ← List.append_assoc, munch_append whole]
      rw [List.cons_append, tokens_cons, tokens_cons]
      rcases munch_before spaces c rest with same | ⟨lexeme, taken, left, short, split, long⟩
      · rw [same]
        cases here : munch c rest with
        | fault cause => rfl
        | token kind lexeme tail =>
          simp only [Munch.before]
          rw [later (by rw [here]; rfl)]
          cases tokens (p.after lexeme) tail <;> rfl
        | skip lexeme tail => exact later (by rw [here]; rfl)
      · -- the comment takes some of the white space and leaves the rest
        have all : lexeme = c :: rest := by
          have taken : (munch c rest).whole = some (lexeme, []) := by rw [short]; rfl
          simpa using munch_append taken
        have spaces' : ∀ d ∈ left, isSpace d = true := fun d member =>
          spaces d (split ▸ List.mem_append_right taken member)
        rw [short, long]
        dsimp only
        rw [tokens_only_spaces spaces', tokens_nil, ← Position.after_append, List.append_assoc,
          ← split, all]
        rfl

end Blank

/-- What is read, moved to another place of a longer text that ends at `stop`. -/
def relocate (origin stop : Position) : Except Failure Output → Except Failure Output
  | .ok out => .ok ⟨out.tokens.map fun t => { t with position := origin.shift t.position }, stop⟩
  | .error failure => .error { failure with position := origin.shift failure.position }

theorem tokens_shift (origin : Position) {p : Position} (counted : p.Counted) (cs : List Char) :
    tokens (origin.shift p) cs = relocate origin (origin.shift (p.after cs)) (tokens p cs) := by
  induction h : cs.length using Nat.strongRecOn generalizing p cs with
  | ind n ih =>
    cases cs with
    | nil => rw [tokens_nil, tokens_nil]; rfl
    | cons c rest =>
      have later {lexeme tail : List Char} (whole : (munch c rest).whole = some (lexeme, tail)) :
          tokens ((origin.shift p).after lexeme) tail =
            relocate origin (origin.shift (p.after (c :: rest)))
              (tokens (p.after lexeme) tail) := by
        rw [← Position.shift_after origin counted,
          ih tail.length (h ▸ munch_shorter whole) (counted.after lexeme) tail rfl,
          ← Position.after_append, munch_append whole]
      rw [tokens_cons, tokens_cons]
      cases here : munch c rest with
      | fault cause => rfl
      | token kind lexeme tail =>
        dsimp only
        rw [later (by rw [here]; rfl)]
        cases tokens (p.after lexeme) tail <;> rfl
      | skip lexeme tail => exact later (by rw [here]; rfl)

theorem spaces_of_blankOut (cs : List Char) : ∀ c ∈ blankOut cs, isSpace c = true := by
  intro c member
  obtain ⟨d, _, rfl⟩ := List.mem_map.mp member
  split
  · rename_i feed
    rw [feed]
    rfl
  · rfl

theorem after_blankOut (p : Position) (cs : List Char) : p.after (blankOut cs) = p.after cs := by
  apply after_eq_of_feeds
  rw [blankOut, List.map_map]
  apply List.map_congr_left
  intro c _
  by_cases feed : c = '\n' <;> simp [feed]

theorem openingTag_eq : openingTag = '<' :: ['t', 'r', 'a', 'n', 's', '>'] := by rfl

theorem closingTag_eq : closingTag = '<' :: ['/', 't', 'r', 'a', 'n', 's', '>'] := by rfl

theorem isolateBlock_of_tags {a opening b closing c : List Char}
    (opens : opening.map Char.toLower = openingTag) (closes : closing.map Char.toLower = closingTag)
    (first : ¬ openingTag <:+: a.map Char.toLower) (within : ¬ closingTag <:+: b.map Char.toLower) :
    isolateBlock (a ++ opening ++ (b ++ (closing ++ c))) =
      .ok (blankOut (a ++ opening) ++ b ++ blankOut (closing ++ c)) := by
  have long : opening.length = openingTag.length := by rw [← opens, List.length_map]
  have opened : Text.find? openingTag 0 ((a ++ opening ++ (b ++ (closing ++ c))).map Char.toLower) =
      some a.length := by
    have found := Text.find?_before [] ((b ++ (closing ++ c)).map Char.toLower) (by decide)
      (openingTag_eq ▸ first)
    simpa [← openingTag_eq, ← opens] using found
  have closed : Text.find? closingTag (a.length + openingTag.length)
      ((a ++ opening ++ (b ++ (closing ++ c))).map Char.toLower) =
        some ((a ++ opening).length + b.length) := by
    have found := Text.find?_before ((a ++ opening).map Char.toLower) (c.map Char.toLower)
      (by decide) (closingTag_eq ▸ within)
    rw [← closingTag_eq, ← closes] at found
    rw [← closes]
    simpa [← long] using found
  have taken : (a ++ opening ++ (b ++ (closing ++ c))).take (a.length + openingTag.length) =
      a ++ opening := List.take_left' (by rw [List.length_append, long])
  unfold isolateBlock
  simp only [opened, closed, taken]
  rw [List.take_length_add_append, List.take_left, List.drop_length_add_append, List.drop_left,
    ← long, ← List.length_append, List.drop_left]

/-- A text with a block, whose tags may be written in any case, is read like the block by itself.
    Before its opening tag there is no other one, and inside of it there is no closing one; it may
    begin or end in the middle of a text or a comment, and hold opening tags of its own. Tokens have
    the same kinds and characters, a failure has the same cause, all positions are moved to where
    the block lies, and the end comes after the whole text. -/
theorem block_is_read_by_itself {a opening b closing c : List Char}
    (opens : opening.map Char.toLower = openingTag) (closes : closing.map Char.toLower = closingTag)
    (first : ¬ openingTag <:+: a.map Char.toLower) (within : ¬ closingTag <:+: b.map Char.toLower) :
    read (a ++ opening ++ b ++ closing ++ c) =
      relocate (Position.start.after (a ++ opening))
        (Position.start.after (a ++ opening ++ b ++ closing ++ c)) (tokens .start b) := by
  have regroup : a ++ opening ++ b ++ closing ++ c = a ++ opening ++ (b ++ (closing ++ c)) := by
    simp only [List.append_assoc]
  have shifted := tokens_shift (Position.start.after (a ++ opening)) Position.counted_start b
  rw [Position.shift_start] at shifted
  rw [regroup, read, isolateBlock_of_tags opens closes first within]
  dsimp only
  rw [List.append_assoc, tokens_spaces (spaces_of_blankOut _), tokens_before (spaces_of_blankOut _),
    after_blankOut, shifted, Position.after_append, after_blankOut, ← Position.after_append,
    ← Position.after_append]
  cases tokens .start b <;> rfl

theorem block_is_read_by_itself_remark :
    "<TRANS>".toList.map Char.toLower = openingTag ∧
    "</Trans>".toList.map Char.toLower = closingTag ∧
    ¬ openingTag <:+: "1 <tran\n<".toList.map Char.toLower ∧
    ¬ closingTag <:+: "x\n<trans>y // </tran".toList.map Char.toLower ∧
    read ("1 <tran\n<".toList ++ "<TRANS>".toList ++ "x\n<trans>y // </tran".toList ++
        "</Trans>".toList ++ "s>\n'".toList) =
      relocate ⟨2, 9⟩ ⟨4, 2⟩ (tokens .start "x\n<trans>y // </tran".toList) := by
  have tagless : ¬ openingTag <:+: "1 <tran\n<".toList.map Char.toLower := by decide +kernel
  have unclosed : ¬ closingTag <:+: "x\n<trans>y // </tran".toList.map Char.toLower := by
    decide +kernel
  refine ⟨by decide, by decide, tagless, unclosed, ?_⟩
  rw [block_is_read_by_itself (by decide) (by decide) tagless unclosed]
  congr 1

end Lexer
end FlowScript
