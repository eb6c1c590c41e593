import FlowScript.Proofs.Lexer.Layout
import FlowScript.Proofs.Number.ReadBack
import FlowScript.Proofs.Source.Words

/-!
Programs as text: their words with a space between each two of them. Main statement: the tokens of
such a text are the words again, except that a zero has lost its sign.
-/
namespace FlowScript

open Token (Kind)

def escaped (c : Char) : List Char := if c = '"' ∨ c = '\\' then ['\\', c] else [c]

def Token.Kind.spelling : Kind → List Char
  | .symbol s => s.spelling
  | .name s => s.toList
  | .global s => s.toList
  | .number x => Number.display x
  | .text s => '"' :: s.toList.flatMap escaped ++ ['"']
  | .bool b => if b then "true".toList else "false".toList

/-- The text of a program: its words with a space between each two of them. -/
def Script.print (p : Program) : List Char :=
  List.intercalate [' '] ((Program.words p).map Kind.spelling)

def IsName (s : String) : Prop :=
  s.toList.head?.any Lexer.isNameStart = true ∧ s.toList.tail.all Lexer.isNameRest = true ∧
    s ≠ "true" ∧ s ≠ "false"

def IsGlobalName (s : String) : Prop :=
  s.toList.head? = some '$' ∧ s.toList.tail ≠ [] ∧ s.toList.tail.all Lexer.isNameRest = true

instance (s : String) : Decidable (IsName s) := inferInstanceAs (Decidable (_ ∧ _))

instance (s : String) : Decidable (IsGlobalName s) := inferInstanceAs (Decidable (_ ∧ _))

theorem IsName.chars {s : String} (name : IsName s) :
    ∃ c cs, s.toList = c :: cs ∧ Lexer.isNameStart c = true ∧
      (∀ d ∈ cs, Lexer.isNameRest d = true) ∧ s ≠ "true" ∧ s ≠ "false" := by
  obtain ⟨start, parts, constants⟩ := name
  cases chars : s.toList with
  | nil => simp [chars] at start
  | cons c cs =>
    rw [chars] at start parts
    exact ⟨c, cs, rfl, by simpa using start, List.all_eq_true.mp parts, constants⟩

theorem IsGlobalName.chars {s : String} (name : IsGlobalName s) :
    ∃ c cs, s.toList = '$' :: c :: cs ∧ ∀ d ∈ c :: cs, Lexer.isNameRest d = true := by
  obtain ⟨dollar, solid, parts⟩ := name
  match chars : s.toList with
  | [] => simp [chars] at dollar
  | [d] => simp [chars] at solid
  | d :: c :: cs =>
    rw [chars] at dollar parts
    obtain rfl : d = '$' := by simpa using dollar
    exact ⟨c, cs, rfl, List.all_eq_true.mp parts⟩

/-- What can be written down so that it is read back. A tag would make the text a block. -/
def Token.Kind.Writable : Kind → Prop
  | .symbol _ => True
  | .name s => IsName s
  | .global s => IsGlobalName s
  | .number x => x.isFinite = true ∧ 0.0 ≤ x
  | .text s => ¬ Lexer.openingTag <:+: s.toList.map Char.toLower
  | .bool _ => True

def Token.Kind.isSigned : Kind → Bool
  | .number x => Number.isNegative x
  | _ => false

instance : (k : Kind) → Decidable k.Writable
  | .symbol _ => isTrue trivial
  | .name s => inferInstanceAs (Decidable (IsName s))
  | .global s => inferInstanceAs (Decidable (IsGlobalName s))
  | .number x => inferInstanceAs (Decidable (x.isFinite = true ∧ 0.0 ≤ x))
  | .text s => inferInstanceAs (Decidable (¬ Lexer.openingTag <:+: s.toList.map Char.toLower))
  | .bool _ => isTrue trivial

namespace Lexer

def Ends (rest : List Char) : Prop := rest = [] ∨ ∃ more, rest = ' ' :: more

theorem Ends.stops {rest : List Char} (ends : Ends rest) {p : Char → Bool} (blank : p ' ' = false) :
    ∀ c ∈ rest.head?, p c = false := by
  rcases ends with rfl | ⟨more, rfl⟩
  · simp
  · simpa using blank

section Words

variable {rest : List Char} (ends : Ends rest)

include ends

theorem munch_symbol (s : Symbol) : ∃ c cs, s.spelling = c :: cs ∧
    munch c (cs ++ rest) = .token (.symbol s) s.spelling rest := by
  rcases ends with rfl | ⟨more, rfl⟩ <;> cases s <;> exact ⟨_, _, rfl, rfl⟩

omit ends in
theorem nameStart_apart {c : Char} (start : isNameStart c = true) :
    isSpace c = false ∧ c ≠ '/' ∧ isQuote c = false ∧ c ≠ '$' ∧ c.isDigit = false ∧ c ≠ '.' := by
  have apart {d : Char} (other : isNameStart d = false) : c ≠ d := by
    rintro rfl
    exact absurd start (by simp [other])
  have digit : c.isDigit = false := by
    simp only [isNameStart, Char.isAlpha, Char.isUpper, Char.isLower, Bool.or_eq_true, beq_iff_eq,
      Bool.and_eq_true, decide_eq_true_eq] at start
    rcases start with rfl | letter
    · rfl
    · simp only [Char.isDigit]
      grind
  refine ⟨?_, apart rfl, ?_, apart rfl, digit, apart rfl⟩
  · simp [isSpace, apart (d := ' ') rfl, apart (d := '\r') rfl, apart (d := '\t') rfl,
      apart (d := '\n') rfl]
  · simp [isQuote, apart (d := '"') rfl, apart (d := '\x27') rfl]

theorem munch_identifier {c : Char} {cs : List Char} (start : isNameStart c = true)
    (parts : ∀ d ∈ cs, isNameRest d = true) :
    munch c (cs ++ rest) = .token (nameKind (c :: cs)) (c :: cs) rest := by
  obtain ⟨taken, left⟩ := span_of_stop parts (ends.stops (by decide))
  obtain ⟨space, slash, quote, dollar, digit, point⟩ := nameStart_apart start
  simp [munch, space, slash, quote, dollar, digit, point, start, munchName, taken, left]

theorem munch_globalName {c : Char} {cs : List Char} (parts : ∀ d ∈ c :: cs, isNameRest d = true) :
    munch '$' (c :: cs ++ rest) =
      .token (.global (String.ofList ('$' :: c :: cs))) ('$' :: c :: cs) rest := by
  obtain ⟨taken, left⟩ := span_of_stop parts (ends.stops (by decide))
  have dollar : munch '$' (c :: cs ++ rest) = munchGlobal (c :: cs ++ rest) := rfl
  rw [dollar, munchGlobal, taken, left]

omit ends in
theorem textBody?_escaped (cs : List Char) :
    textBody? '"' (cs.flatMap escaped ++ '"' :: rest) =
      some (cs, cs.flatMap escaped ++ ['"'], rest) := by
  induction cs with
  | nil => rfl
  | cons c more ih =>
    rw [List.flatMap_cons, escaped]
    split
    · rename_i special
      have same : unescape c = c := by rcases special with rfl | rfl <;> rfl
      simp only [List.cons_append, List.nil_append, textBody?, ih, Option.map_some, same]
    · rename_i plain
      rw [not_or] at plain
      simp only [List.cons_append, List.nil_append]
      rw [textBody?]
      · simp [plain, ih]
      · simp [plain]

omit ends in
theorem munch_quoted (s : String) :
    munch '"' (s.toList.flatMap escaped ++ ['"'] ++ rest) =
      .token (.text s) ('"' :: s.toList.flatMap escaped ++ ['"']) rest := by
  have quote (cs : List Char) : munch '"' cs = munchText '"' cs := rfl
  rw [quote, munchText, List.append_assoc, List.singleton_append, textBody?_escaped]
  simp

theorem exponentPart_ends : exponentPart rest = ([], rest) := by
  rcases ends with rfl | ⟨more, rfl⟩ <;> rfl

theorem fractionPart_ends : fractionPart rest = ([], rest) := by
  rcases ends with rfl | ⟨more, rfl⟩ <;> rfl

theorem fractionPart_point {fraction : List Char} (solid : fraction ≠ [])
    (digits : ∀ d ∈ fraction, d.isDigit = true) :
    fractionPart ('.' :: fraction ++ rest) = ('.' :: fraction, rest) := by
  obtain ⟨taken, left⟩ := span_of_stop digits (ends.stops (by decide))
  cases fraction with
  | nil => exact absurd rfl solid
  | cons d more =>
    have first : startsWithDigit (d :: more ++ rest) = true := digits d (by simp)
    rw [List.cons_append, fractionPart, if_pos first, taken, left]

theorem numeral_plain {c : Char} {cs whole fraction : List Char}
    (plain : Decimal.Plain (c :: cs) whole fraction) :
    numeral c (cs ++ rest) = (c :: cs, rest) := by
  obtain ⟨spelled, solid, digits⟩ := plain
  obtain ⟨whole_digits, fraction_digits⟩ := List.forall_mem_append.mp digits
  cases whole with
  | nil => exact absurd rfl solid
  | cons d more =>
    obtain ⟨rfl, rfl⟩ := List.cons.inj spelled
    have more_digits := (List.forall_mem_cons.mp whole_digits).2
    unfold numeral
    by_cases none_after : fraction = []
    · obtain ⟨taken, left⟩ := span_of_stop more_digits (ends.stops (p := Char.isDigit) (by decide))
      simp [none_after, taken, left, fractionPart_ends ends, exponentPart_ends ends]
    · obtain ⟨taken, left⟩ :=
        span_of_stop (r := '.' :: fraction ++ rest) more_digits (by simp [Char.isDigit])
      have shape := fractionPart_point ends none_after fraction_digits
      rw [List.cons_append] at taken left shape
      simp [none_after, taken, left, shape, exponentPart_ends ends]

omit ends in
theorem munch_digit {c : Char} (digit : c.isDigit = true) (cs : List Char) :
    munch c cs = munchNumber c cs := by
  have apart {d : Char} (other : d.isDigit = false) : c ≠ d := by
    rintro rfl
    exact absurd digit (by simp [other])
  have quote : isQuote c = false := by
    simp [isQuote, apart (d := '"') rfl, apart (d := '\x27') rfl]
  simp [munch, visible_of_digit digit, apart (d := '/') rfl, apart (d := '$') rfl, quote, digit]

theorem munch_number {x : Float} (finite : x.isFinite = true) (nonneg : 0.0 ≤ x) :
    ∃ c cs, Number.display x = c :: cs ∧ munch c (cs ++ rest) =
      .token (.number (Number.positiveZero x)) (Number.display x) rest := by
  obtain ⟨whole, fraction, plain, read⟩ := Number.read_display finite nonneg
  obtain ⟨c, cs, shown, digit⟩ := plain.first
  rw [shown] at plain read ⊢
  refine ⟨c, cs, rfl, ?_⟩
  rw [munch_digit digit, munchNumber, numeral_plain ends plain]
  simp [read]

/-- A word before a space, or at the end of the text, is read as a whole. -/
theorem munch_word {k : Kind} (writable : k.Writable) : ∃ c cs, k.spelling = c :: cs ∧
    munch c (cs ++ rest) = .token (k.mapNumber Number.positiveZero) k.spelling rest := by
  cases k with
  | symbol s => exact munch_symbol ends s
  | number x => exact munch_number ends writable.1 writable.2
  | text s => exact ⟨_, _, rfl, munch_quoted s⟩
  | name s =>
    obtain ⟨c, cs, same, start, parts, not_true, not_false⟩ := writable.chars
    refine ⟨c, cs, same, ?_⟩
    rw [munch_identifier ends start parts]
    have kind : nameKind s.toList = .name s := by
      rw [nameKind, if_neg (mt String.toList_inj.mp not_true),
        if_neg (mt String.toList_inj.mp not_false), String.ofList_toList]
    rw [← same, kind]
    rfl
  | global s =>
    obtain ⟨c, cs, same, parts⟩ := writable.chars
    refine ⟨'$', c :: cs, same, ?_⟩
    rw [munch_globalName ends parts, ← same, String.ofList_toList]
    rfl
  | bool b =>
    cases b with
    | true => exact ⟨_, _, rfl, munch_identifier ends rfl (List.all_eq_true.mp rfl)⟩
    | false => exact ⟨_, _, rfl, munch_identifier ends rfl (List.all_eq_true.mp rfl)⟩

theorem tokens_word {k : Kind} (writable : k.Writable) (p : Position) :
    tokens p (k.spelling ++ rest) = (tokens (p.after k.spelling) rest).map
      (.add ⟨k.mapNumber Number.positiveZero, k.spelling, p⟩) := by
  obtain ⟨c, cs, same, taken⟩ := munch_word ends writable
  rw [same] at taken ⊢
  rw [List.cons_append, tokens_cons, taken]

end Words

theorem tokens_space (p : Position) (cs : List Char) :
    tokens p (' ' :: cs) = tokens (p.after [' ']) cs := by
  rw [tokens_cons]
  rfl

theorem tokens_words {ks : List Kind} (writable : ∀ k ∈ ks, k.Writable) (p : Position) :
    ∃ out, tokens p (List.intercalate [' '] (ks.map Kind.spelling)) = .ok out ∧
      out.tokens.map (·.kind) = ks.map (.mapNumber Number.positiveZero) := by
  induction ks generalizing p with
  | nil => exact ⟨⟨[], p⟩, tokens_nil p, rfl⟩
  | cons k rest ih =>
    obtain ⟨here, later⟩ := List.forall_mem_cons.mp writable
    cases rest with
    | nil =>
      have single := tokens_word (.inl rfl) here p
      rw [tokens_nil, List.append_nil] at single
      simp only [List.map_cons, List.map_nil, List.intercalate_singleton]
      exact ⟨_, single, rfl⟩
    | cons next more =>
      obtain ⟨out, read, kinds⟩ := ih later ((p.after k.spelling).after [' '])
      rw [List.map_cons, List.map_cons, List.intercalate_cons_cons, List.append_assoc,
        List.singleton_append, tokens_word (.inr ⟨_, rfl⟩) here, tokens_space, ← List.map_cons,
        read]
      exact ⟨_, rfl, by rw [List.map_cons (l := next :: more), ← kinds]; rfl⟩

end Lexer
end FlowScript
