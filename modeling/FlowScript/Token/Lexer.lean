import FlowScript.Token
import FlowScript.Number.Decimal
import FlowScript.Text.Occurrence

/-!
From text to tokens. `munch` takes one token, comment or blank off the front of a text; `tokens`
repeats it. Text outside a `<trans>` block is blanked first, line breaks kept, so that positions
are those of the whole text.
-/
namespace FlowScript.Lexer

inductive Fault where
  | unexpectedCharacter (c : Char)
  | unterminatedText
  | unterminatedComment
  | missingGlobalName
  | invalidNumber (lexeme : List Char)
  | unclosedBlock
  deriving DecidableEq, Repr

def Fault.message : Fault → String
  | unexpectedCharacter c => "unexpected character '" ++ String.singleton c ++ "'"
  | unterminatedText => "unterminated string literal"
  | unterminatedComment => "unterminated block comment"
  | missingGlobalName => "expected global variable name after '$'"
  | invalidNumber lexeme => "invalid numeric literal '" ++ String.ofList lexeme ++ "'"
  | unclosedBlock => "missing closing </trans> tag"

structure Failure where
  fault : Fault
  position : Position
  deriving DecidableEq, Repr

structure Output where
  tokens : List Token
  stop : Position
  deriving Repr

def isSpace (c : Char) : Bool := c == ' ' || c == '\r' || c == '\t' || c == '\n'

def isNameStart (c : Char) : Bool := c == '_' || c.isAlpha

def isNameRest (c : Char) : Bool := c == '_' || c == '.' || c.isAlphanum

def isQuote (c : Char) : Bool := c == '"' || c == '\x27'

def startsWithDigit : List Char → Bool
  | [] => false
  | c :: _ => c.isDigit

def unescape (c : Char) : Char :=
  match c with
  | 'n' => '\n'
  | 'r' => '\r'
  | 't' => '\t'
  | _ => c

/-- What a quoted text is made of, from the character after the opening quote on: its value, the
    characters up to and including the closing quote, and the characters after it. -/
def textBody? (quote : Char) : List Char → Option (List Char × List Char × List Char)
  | [] => none
  | '\\' :: c :: rest =>
    (textBody? quote rest).map fun (value, raw, tail) => (unescape c :: value, '\\' :: c :: raw, tail)
  | c :: rest =>
    if c = quote then some ([], [c], rest)
    else (textBody? quote rest).map fun (value, raw, tail) => (c :: value, c :: raw, tail)

def commentBody? : List Char → Option (List Char × List Char)
  | [] => none
  | '*' :: '/' :: rest => some (['*', '/'], rest)
  | c :: rest => (commentBody? rest).map fun (raw, tail) => (c :: raw, tail)

/-- A point counts as part of a number only before a digit. -/
def fractionPart (cs : List Char) : List Char × List Char :=
  match cs with
  | '.' :: rest =>
    if startsWithDigit rest then ('.' :: rest.takeWhile Char.isDigit, rest.dropWhile Char.isDigit)
    else ([], cs)
  | _ => ([], cs)

def exponentPart (cs : List Char) : List Char × List Char :=
  match cs with
  | [] => ([], [])
  | e :: rest =>
    if e = 'e' ∨ e = 'E' then
      match rest with
      | [] => ([], cs)
      | s :: more =>
        if s = '+' ∨ s = '-' then
          if startsWithDigit more then
            (e :: s :: more.takeWhile Char.isDigit, more.dropWhile Char.isDigit)
          else ([], cs)
        else if s.isDigit then (e :: rest.takeWhile Char.isDigit, rest.dropWhile Char.isDigit)
        else ([], cs)
    else ([], cs)

def numeral (c : Char) (cs : List Char) : List Char × List Char :=
  let whole := cs.takeWhile Char.isDigit
  let (fraction, rest) := fractionPart (cs.dropWhile Char.isDigit)
  let (exponent, rest) := exponentPart rest
  (c :: whole ++ fraction ++ exponent, rest)

inductive Munch where
  | token (kind : Token.Kind) (lexeme rest : List Char)
  | skip (lexeme rest : List Char)
  | fault (cause : Fault)
  deriving Repr

def munchText (quote : Char) (cs : List Char) : Munch :=
  match textBody? quote cs with
  | some (value, raw, rest) => .token (.text (String.ofList value)) (quote :: raw) rest
  | none => .fault .unterminatedText

def munchGlobal (cs : List Char) : Munch :=
  match cs.takeWhile isNameRest with
  | [] => .fault .missingGlobalName
  | c :: more =>
    let lexeme := '$' :: c :: more
    .token (.global (String.ofList lexeme)) lexeme (cs.dropWhile isNameRest)

def munchNumber (c : Char) (cs : List Char) : Munch :=
  let (lexeme, rest) := numeral c cs
  match Number.readDecimal? lexeme with
  | some value => .token (.number value) lexeme rest
  | none => .fault (.invalidNumber lexeme)

def nameKind (lexeme : List Char) : Token.Kind :=
  if lexeme = "true".toList then .bool true
  else if lexeme = "false".toList then .bool false
  else .name (String.ofList lexeme)

def munchName (c : Char) (cs : List Char) : Munch :=
  let lexeme := c :: cs.takeWhile isNameRest
  .token (nameKind lexeme) lexeme (cs.dropWhile isNameRest)

def munchChar (c : Char) (cs : List Char) : Munch :=
  match Symbol.ofChar? c with
  | some s => .token (.symbol s) [c] cs
  | none => .fault (.unexpectedCharacter c)

def munchSymbol (c : Char) (cs : List Char) : Munch :=
  match cs with
  | [] => munchChar c cs
  | d :: rest =>
    match Symbol.ofPair? c d with
    | some s => .token (.symbol s) [c, d] rest
    | none => munchChar c cs

def munchComment (cs : List Char) : Munch :=
  match commentBody? cs with
  | some (raw, rest) => .skip ('/' :: '*' :: raw) rest
  | none => .fault .unterminatedComment

def notLineFeed (c : Char) : Bool := c != '\n'

def munchSlash (cs : List Char) : Munch :=
  match cs with
  | '/' :: _ => .skip ('/' :: cs.takeWhile notLineFeed) (cs.dropWhile notLineFeed)
  | '*' :: rest => munchComment rest
  | _ => munchSymbol '/' cs

/-- Takes the longest token, comment or blank off the front of `c :: cs`. -/
def munch (c : Char) (cs : List Char) : Munch :=
  if isSpace c then .skip [c] cs
  else if c = '/' then munchSlash cs
  else if isQuote c then munchText c cs
  else if c = '$' then munchGlobal cs
  else if c.isDigit || (c == '.' && startsWithDigit cs) then munchNumber c cs
  else if isNameStart c then munchName c cs
  else munchSymbol c cs

def Munch.whole : Munch → Option (List Char × List Char)
  | .token _ lexeme rest => some (lexeme, rest)
  | .skip lexeme rest => some (lexeme, rest)
  | .fault _ => none

theorem textBody?_append {quote : Char} {cs value raw rest : List Char}
    (h : textBody? quote cs = some (value, raw, rest)) : raw ++ rest = cs := by
  fun_induction textBody? quote cs generalizing value raw rest with
  | case1 => simp at h
  | case2 c tail ih =>
    simp only [Option.map_eq_some_iff, Prod.exists, Prod.mk.injEq] at h
    obtain ⟨v, r, t, ht, rfl, rfl, rfl⟩ := h
    simp [ih ht]
  | case3 tail _ =>
    simp only [Option.some.injEq, Prod.mk.injEq] at h
    obtain ⟨rfl, rfl, rfl⟩ := h
    rfl
  | case4 c tail _ _ ih =>
    simp only [Option.map_eq_some_iff, Prod.exists, Prod.mk.injEq] at h
    obtain ⟨v, r, t, ht, rfl, rfl, rfl⟩ := h
    simp [ih ht]

theorem commentBody?_append {cs raw rest : List Char}
    (h : commentBody? cs = some (raw, rest)) : raw ++ rest = cs := by
  fun_induction commentBody? cs generalizing raw rest with
  | case1 => simp at h
  | case2 tail =>
    simp only [Option.some.injEq, Prod.mk.injEq] at h
    obtain ⟨rfl, rfl⟩ := h
    rfl
  | case3 c tail _ ih =>
    simp only [Option.map_eq_some_iff, Prod.exists, Prod.mk.injEq] at h
    obtain ⟨r, t, ht, rfl, rfl⟩ := h
    simp [ih ht]

theorem fractionPart_append (cs : List Char) : (fractionPart cs).1 ++ (fractionPart cs).2 = cs := by
  unfold fractionPart
  split
  · split <;> simp
  · simp

theorem exponentPart_append (cs : List Char) : (exponentPart cs).1 ++ (exponentPart cs).2 = cs := by
  unfold exponentPart
  repeat' split
  all_goals simp

theorem numeral_append (c : Char) (cs : List Char) :
    (numeral c cs).1 ++ (numeral c cs).2 = c :: cs := by
  simp [numeral, exponentPart_append, fractionPart_append]

theorem munchChar_append {c : Char} {cs lexeme rest : List Char}
    (h : (munchChar c cs).whole = some (lexeme, rest)) : lexeme ++ rest = c :: cs := by
  unfold munchChar at h
  split at h <;> simp only [Munch.whole, Option.some.injEq, Prod.mk.injEq, reduceCtorEq] at h
  obtain ⟨rfl, rfl⟩ := h
  rfl

theorem munchSymbol_append {c : Char} {cs lexeme rest : List Char}
    (h : (munchSymbol c cs).whole = some (lexeme, rest)) : lexeme ++ rest = c :: cs := by
  unfold munchSymbol at h
  split at h
  · exact munchChar_append h
  · split at h
    · simp only [Munch.whole, Option.some.injEq, Prod.mk.injEq] at h
      obtain ⟨rfl, rfl⟩ := h
      rfl
    · exact munchChar_append h

theorem munchSlash_append {cs lexeme rest : List Char}
    (h : (munchSlash cs).whole = some (lexeme, rest)) : lexeme ++ rest = '/' :: cs := by
  unfold munchSlash at h
  split at h
  · simp only [Munch.whole, Option.some.injEq, Prod.mk.injEq] at h
    obtain ⟨rfl, rfl⟩ := h
    rw [List.cons_append, List.takeWhile_append_dropWhile]
  · unfold munchComment at h
    split at h
    · rename_i body
      simp only [Munch.whole, Option.some.injEq, Prod.mk.injEq] at h
      obtain ⟨rfl, rfl⟩ := h
      simp [commentBody?_append body]
    · simp [Munch.whole] at h
  · exact munchSymbol_append h

theorem munchText_append {quote : Char} {cs lexeme rest : List Char}
    (h : (munchText quote cs).whole = some (lexeme, rest)) : lexeme ++ rest = quote :: cs := by
  unfold munchText at h
  split at h
  · rename_i body
    simp only [Munch.whole, Option.some.injEq, Prod.mk.injEq] at h
    obtain ⟨rfl, rfl⟩ := h
    simp [textBody?_append body]
  · simp [Munch.whole] at h

theorem munchGlobal_append {cs lexeme rest : List Char}
    (h : (munchGlobal cs).whole = some (lexeme, rest)) : lexeme ++ rest = '$' :: cs := by
  unfold munchGlobal at h
  split at h
  · simp [Munch.whole] at h
  · rename_i taken
    simp only [Munch.whole, Option.some.injEq, Prod.mk.injEq] at h
    obtain ⟨rfl, rfl⟩ := h
    rw [← taken, List.cons_append, List.takeWhile_append_dropWhile]

theorem munchNumber_append {c : Char} {cs lexeme rest : List Char}
    (h : (munchNumber c cs).whole = some (lexeme, rest)) : lexeme ++ rest = c :: cs := by
  unfold munchNumber at h
  simp only at h
  split at h
  · simp only [Munch.whole, Option.some.injEq, Prod.mk.injEq] at h
    obtain ⟨rfl, rfl⟩ := h
    exact numeral_append c cs
  · simp [Munch.whole] at h

theorem munchName_append {c : Char} {cs lexeme rest : List Char}
    (h : (munchName c cs).whole = some (lexeme, rest)) : lexeme ++ rest = c :: cs := by
  simp only [munchName, Munch.whole, Option.some.injEq, Prod.mk.injEq] at h
  obtain ⟨rfl, rfl⟩ := h
  simp

theorem munch_append {c : Char} {cs lexeme rest : List Char}
    (h : (munch c cs).whole = some (lexeme, rest)) : lexeme ++ rest = c :: cs := by
  unfold munch at h
  split at h
  · simp only [Munch.whole, Option.some.injEq, Prod.mk.injEq] at h
    obtain ⟨rfl, rfl⟩ := h
    rfl
  split at h
  · rename_i slash
    subst slash
    exact munchSlash_append h
  split at h
  · exact munchText_append h
  split at h
  · rename_i dollar
    subst dollar
    exact munchGlobal_append h
  split at h
  · exact munchNumber_append h
  split at h
  · exact munchName_append h
  · exact munchSymbol_append h

theorem munchSymbol_nonempty {c : Char} {cs lexeme rest : List Char}
    (h : (munchSymbol c cs).whole = some (lexeme, rest)) : lexeme ≠ [] := by
  unfold munchSymbol munchChar at h
  intro empty
  subst empty
  repeat' split at h
  all_goals simp [Munch.whole] at h

theorem munch_nonempty {c : Char} {cs lexeme rest : List Char}
    (h : (munch c cs).whole = some (lexeme, rest)) : lexeme ≠ [] := by
  intro empty
  subst empty
  unfold munch at h
  split at h
  · simp [Munch.whole] at h
  split at h
  · unfold munchSlash at h
    split at h
    · simp [Munch.whole] at h
    · unfold munchComment at h
      split at h <;> simp [Munch.whole] at h
    · exact munchSymbol_nonempty h rfl
  split at h
  · unfold munchText at h
    split at h <;> simp [Munch.whole] at h
  split at h
  · unfold munchGlobal at h
    split at h <;> simp [Munch.whole] at h
  split at h
  · unfold munchNumber at h
    simp only [numeral] at h
    split at h <;> simp [Munch.whole] at h
  split at h
  · simp [munchName, Munch.whole] at h
  · exact munchSymbol_nonempty h rfl

theorem munch_shorter {c : Char} {cs lexeme rest : List Char}
    (h : (munch c cs).whole = some (lexeme, rest)) : rest.length < (c :: cs).length := by
  have total := congrArg List.length (munch_append h)
  have some_taken := List.length_pos_iff.2 (munch_nonempty h)
  rw [List.length_append] at total
  omega

def tokens (p : Position) (cs : List Char) : Except Failure Output :=
  match cs with
  | [] => .ok ⟨[], p⟩
  | c :: rest =>
    match _h : munch c rest with
    | .token kind lexeme tail =>
      match tokens (p.after lexeme) tail with
      | .ok out => .ok { out with tokens := ⟨kind, lexeme, p⟩ :: out.tokens }
      | .error failure => .error failure
    | .skip lexeme tail => tokens (p.after lexeme) tail
    | .fault cause => .error ⟨cause, p⟩
termination_by cs.length
decreasing_by
  · exact munch_shorter (by rw [_h]; rfl)
  · exact munch_shorter (by rw [_h]; rfl)

def openingTag : List Char := "<trans>".toList

def closingTag : List Char := "</trans>".toList

def blankOut (cs : List Char) : List Char := cs.map fun c => if c = '\n' then c else ' '

/-- Blanks all that lies outside the first `<trans>` block. Tags are found in any case, and a text
    without an opening tag is one block. -/
def isolateBlock (cs : List Char) : Except Failure (List Char) :=
  let lowered := cs.map Char.toLower
  match Text.find? openingTag 0 lowered with
  | none => .ok cs
  | some opening =>
    let first := opening + openingTag.length
    match Text.find? closingTag first lowered with
    | none => .error ⟨.unclosedBlock, Position.start.after (cs.take opening)⟩
    | some closing =>
      .ok (blankOut (cs.take first) ++ (cs.take closing).drop first ++ blankOut (cs.drop closing))

def read (source : List Char) : Except Failure Output :=
  match isolateBlock source with
  | .ok cs => tokens .start cs
  | .error failure => .error failure

end FlowScript.Lexer
