import FlowScript.Proofs.Lexer.Layout

/-!
How texts end. Main statements: what the last character of a token may be, and after the last token
or comment of a text there is nothing but white space.
-/
namespace FlowScript.Lexer

open Token (Kind)

def EndsInDigit (cs : List Char) : Prop := ∀ a ∈ cs.getLast?, a.isDigit = true

theorem endsInDigit_nil : EndsInDigit [] := by simp [EndsInDigit]

theorem EndsInDigit.append {xs ys : List Char} (left : EndsInDigit xs) (right : EndsInDigit ys) :
    EndsInDigit (xs ++ ys) := by
  intro a last
  rw [List.getLast?_append, Option.mem_def, Option.or_eq_some_iff] at last
  rcases last with here | ⟨-, earlier⟩
  · exact right a here
  · exact left a earlier

theorem endsInDigit_digits (cs : List Char) : EndsInDigit (cs.takeWhile Char.isDigit) :=
  fun _ last => List.mem_takeWhile_imp (List.mem_of_getLast? last)

theorem endsInDigit_cons {cs : List Char} (c : Char) (start : startsWithDigit cs = true) :
    EndsInDigit (c :: cs.takeWhile Char.isDigit) := by
  cases cs with
  | nil => cases start
  | cons d rest =>
    have digit : d.isDigit = true := start
    have digits := endsInDigit_digits (d :: rest)
    rw [List.takeWhile_cons_of_pos digit] at digits ⊢
    intro a last
    rw [List.getLast?_cons_cons] at last
    exact digits a last

theorem fractionPart_endsInDigit (cs : List Char) : EndsInDigit (fractionPart cs).1 := by
  unfold fractionPart
  split
  · split
    · rename_i start
      exact endsInDigit_cons '.' start
    · exact endsInDigit_nil
  · exact endsInDigit_nil

theorem exponentPart_endsInDigit (cs : List Char) : EndsInDigit (exponentPart cs).1 := by
  unfold exponentPart
  split
  · exact endsInDigit_nil
  · rename_i e rest
    split
    · split
      · exact endsInDigit_nil
      · rename_i s more
        split
        · split
          · rename_i start
            intro a last
            rw [List.getLast?_cons_cons] at last
            exact endsInDigit_cons s start a last
          · exact endsInDigit_nil
        · split
          · rename_i digit
            exact endsInDigit_cons e digit
          · exact endsInDigit_nil
    · exact endsInDigit_nil

theorem numeral_endsInDigit {c : Char} {cs : List Char}
    (start : (c.isDigit || (c == '.' && startsWithDigit cs)) = true) :
    EndsInDigit (numeral c cs).1 := by
  have whole : EndsInDigit (c :: cs.takeWhile Char.isDigit) := by
    rw [Bool.or_eq_true, Bool.and_eq_true] at start
    rcases start with digit | ⟨-, later⟩
    · have first : EndsInDigit [c] := by
        rintro a ⟨⟩
        exact digit
      exact first.append (endsInDigit_digits cs)
    · exact endsInDigit_cons c later
  exact (whole.append (fractionPart_endsInDigit _)).append (exponentPart_endsInDigit _)

/-- A symbol is spelled in one way only; any other token ends like a name or like a text. -/
def Spelled : Kind → List Char → Prop
  | .symbol s, lexeme => lexeme = s.spelling
  | _, lexeme => ∃ a, lexeme.getLast? = some a ∧ (isNameRest a = true ∨ isQuote a = true)

variable {c : Char} {cs lexeme rest : List Char} {kind : Kind}

theorem spelled_word (word : ∀ s, kind ≠ .symbol s) {a : Char} (last : lexeme.getLast? = some a)
    (part : isNameRest a = true ∨ isQuote a = true) : Spelled kind lexeme := by
  cases kind with
  | symbol s => exact absurd rfl (word s)
  | _ => exact ⟨a, last, part⟩

theorem spelled_name (word : ∀ s, kind ≠ .symbol s) (solid : lexeme ≠ [])
    (part : ∀ a ∈ lexeme.getLast?, isNameRest a = true) : Spelled kind lexeme := by
  have last := List.getLast?_eq_some_getLast solid
  exact spelled_word word last (.inl (part _ last))

theorem munchChar_spelled (taken : munchChar c cs = .token kind lexeme rest) :
    Spelled kind lexeme := by
  unfold munchChar at taken
  split at taken
  · rename_i found
    cases taken
    exact (Symbol.spelling_of_ofChar? found).symm
  · cases taken

theorem munchSymbol_spelled (taken : munchSymbol c cs = .token kind lexeme rest) :
    Spelled kind lexeme := by
  unfold munchSymbol at taken
  split at taken
  · exact munchChar_spelled taken
  · split at taken
    · rename_i found
      cases taken
      exact (Symbol.spelling_of_ofPair? found).symm
    · exact munchChar_spelled taken

theorem munchSlash_spelled (taken : munchSlash cs = .token kind lexeme rest) :
    Spelled kind lexeme := by
  unfold munchSlash at taken
  split at taken
  · cases taken
  · unfold munchComment at taken
    split at taken <;> cases taken
  · exact munchSymbol_spelled taken

theorem munchText_spelled (isquote : isQuote c = true)
    (taken : munchText c cs = .token kind lexeme rest) : Spelled kind lexeme := by
  unfold munchText at taken
  split at taken
  · rename_i body
    cases taken
    apply spelled_word
    · simp
    · rw [List.getLast?_cons, textBody?_last body, Option.getD_some]
    · exact .inr isquote
  · cases taken

theorem munchGlobal_spelled (taken : munchGlobal cs = .token kind lexeme rest) :
    Spelled kind lexeme := by
  unfold munchGlobal at taken
  split at taken
  · cases taken
  · rename_i first more name
    cases taken
    apply spelled_name
    · simp
    · simp
    · intro a last
      rw [List.getLast?_cons_cons, ← name] at last
      exact List.mem_takeWhile_imp (List.mem_of_getLast? last)

theorem munchNumber_spelled (start : (c.isDigit || (c == '.' && startsWithDigit cs)) = true)
    (taken : munchNumber c cs = .token kind lexeme rest) : Spelled kind lexeme := by
  unfold munchNumber at taken
  dsimp only at taken
  split at taken
  · cases taken
    apply spelled_name
    · simp
    · simp [numeral]
    · intro a last
      have digit : a.isDigit = true := numeral_endsInDigit start a last
      simp [isNameRest, Char.isAlphanum, digit]
  · cases taken

theorem munchName_spelled (start : isNameStart c = true)
    (taken : munchName c cs = .token kind lexeme rest) : Spelled kind lexeme := by
  cases taken
  apply spelled_name (nameKind_ne_symbol _)
  · simp
  · exact fun a last => name_parts start cs a (List.mem_of_getLast? last)

theorem munch_spelled (taken : munch c cs = .token kind lexeme rest) : Spelled kind lexeme := by
  unfold munch at taken
  split at taken
  · cases taken
  split at taken
  · exact munchSlash_spelled taken
  split at taken
  · rename_i isquote
    exact munchText_spelled isquote taken
  split at taken
  · exact munchGlobal_spelled taken
  split at taken
  · rename_i start
    exact munchNumber_spelled start taken
  split at taken
  · rename_i start
    exact munchName_spelled start taken
  · exact munchSymbol_spelled taken

theorem tokens_spelled {p : Position} {out : Output} (done : tokens p cs = .ok out) :
    ∀ t ∈ out.tokens, Spelled t.kind t.lexeme := by
  fun_induction tokens p cs generalizing out with
  | case1 p =>
    cases done
    simp
  | case2 p c rest kind lexeme tail taken more read ih =>
    cases done
    exact List.forall_mem_cons.mpr ⟨munch_spelled taken, ih read⟩
  | case3 p c rest kind lexeme tail taken failure read ih => cases done
  | case4 p c rest lexeme tail taken ih => exact ih done
  | case5 p c rest cause taken => cases done

variable {text : List Char} {first o : Nat} {pieces : List (Nat × Piece)} {piece : Piece}

theorem Laid.after_last (laid : Laid text first text.length (pieces ++ [(o, piece)])) :
    text = text.take o ++ piece.chars ++ text.drop (o + piece.chars.length) ∧
    ∀ c ∈ text.drop (o + piece.chars.length), isSpace c = true := by
  have listed : (o, piece) ∈ pieces ++ [(o, piece)] := by simp
  have inside : first ≤ o ∧ o + piece.chars.length ≤ text.length := laid.inside _ listed
  have there : (text.drop o).take piece.chars.length = piece.chars := laid.there _ listed
  constructor
  · calc text = text.take o ++ text.drop o := (List.take_append_drop o text).symm
      _ = text.take o ++ ((text.drop o).take piece.chars.length ++
            (text.drop o).drop piece.chars.length) := by simp only [List.take_append_drop]
      _ = text.take o ++ piece.chars ++ text.drop (o + piece.chars.length) := by
            rw [there, List.drop_drop, List.append_assoc]
  · intro c member
    obtain ⟨i, found⟩ := List.mem_iff_getElem?.mp member
    rw [List.getElem?_drop] at found
    have short := (List.getElem?_eq_some_iff.mp found).1
    apply laid.blank (o + piece.chars.length + i) c (by omega) short found
    intro q member covered
    rcases List.mem_append.mp member with earlier | last
    · have before := (List.pairwise_append.mp laid.apart).2.2 q earlier (o, piece) (by simp)
      dsimp only at before
      omega
    · obtain rfl : q = (o, piece) := by simpa using last
      dsimp only at covered
      omega

/-- The last thing in the text is a comment, but for white space after it. -/
def EndsInComment (source : List Char) : Prop :=
  ∃ out pieces o chars, read source = .ok out ∧
    Laid source (bounds source).1 (bounds source).2 (pieces ++ [(o, .comment chars)]) ∧
    out.tokens = pieces.filterMap (·.2.token?)

/-- The text holds white space only, or ends in a token, or in a comment. -/
theorem read_ending {source : List Char} (free : ¬ openingTag <:+: source.map Char.toLower)
    {out : Output} (done : read source = .ok out) :
    (∀ c ∈ source, isSpace c = true) ∨
    (∃ before t after, source = before ++ t.lexeme ++ after ∧ (∀ c ∈ after, isSpace c = true) ∧
      out.tokens.getLast? = some t ∧ Spelled t.kind t.lexeme) ∨
    EndsInComment source := by
  have loop : tokens .start source = .ok out := by
    rw [read, isolateBlock_of_tag_free free] at done
    exact done
  have outcome := tokens_outcome source 0 (Nat.zero_le _)
  change Outcome source 0 (tokens .start source) at outcome
  rw [loop] at outcome
  obtain ⟨_, pieces, laid, _, listed⟩ := outcome
  rcases List.eq_nil_or_concat pieces with rfl | ⟨pieces, ⟨o, piece⟩, rfl⟩
  · left
    intro c member
    obtain ⟨i, found⟩ := List.mem_iff_getElem?.mp member
    have short := (List.getElem?_eq_some_iff.mp found).1
    exact laid.blank i c (Nat.zero_le i) short found (by simp)
  · rw [List.concat_eq_append] at laid listed
    right
    cases piece with
    | token t =>
      left
      have last : out.tokens.getLast? = some t := by
        rw [listed]
        simp [Piece.token?]
      obtain ⟨split, blank⟩ := laid.after_last
      exact ⟨_, t, _, split, blank, last, tokens_spelled loop t (List.mem_of_getLast? last)⟩
    | comment chars =>
      right
      refine ⟨out, pieces, o, chars, done, ?_, ?_⟩
      · rw [bounds_of_tag_free free]
        exact laid
      · rw [listed]
        simp [Piece.token?]

end FlowScript.Lexer
