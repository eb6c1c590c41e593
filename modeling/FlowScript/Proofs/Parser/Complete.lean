import Mathlib.Tactic.IntervalCases
import FlowScript.Proofs.Parser.Sound

/-!
What is in the grammar, the parser accepts. A phrase is read whole from tokens that begin with it,
provided that what follows does not go on with the phrase. Main statement: the parser gives what the
grammar says the tokens mean, so no tokens have two meanings.
-/
namespace FlowScript.Parser

open Token (Kind)
open Grammar

/-- The rank at which a symbol goes on with the expression before it. A parenthesis goes on with a
    name, which is then called. -/
def joint : Symbol → Option Nat
  | .equal | .plusEqual | .minusEqual => some 0
  | .pipePipe | .pipe => some 1
  | .ampAmp | .amp => some 2
  | .equalEqual | .bangEqual => some 3
  | .greater | .greaterEqual | .less | .lessEqual => some 4
  | .plus | .minus => some 5
  | .star | .slash => some 6
  | .caret => some 7
  | .leftBracket | .plusPlus | .minusMinus => some 9
  | .leftParen => some 10
  | _ => none

/-- The tokens do not go on with a phrase of the rank. -/
def Stops (n : Nat) (ts : List Kind) : Prop :=
  ∀ s j, ahead ts = some s → joint s = some j → j < n

theorem Stops.mono {n m : Nat} {ts : List Kind} (stops : Stops n ts) (le : n ≤ m) : Stops m ts :=
  fun s j first found => Nat.lt_of_lt_of_le (stops s j first found) le

theorem stops_nil (n : Nat) : Stops n [] := by
  intro s j first
  cases first

theorem stops_symbol {n : Nat} {s : Symbol} (before : ∀ j, joint s = some j → j < n)
    (ts : List Kind) : Stops n (.symbol s :: ts) := by
  rintro _ j ⟨⟩
  exact before j

theorem Stops.ahead_ne {n j : Nat} {ts : List Kind} (stops : Stops n ts) {s : Symbol}
    (found : joint s = some j) (le : n ≤ j) : ahead ts ≠ some s :=
  fun first => Nat.lt_irrefl _ (Nat.lt_of_lt_of_le (stops s j first found) le)

theorem Stops.bind_none {α : Type} {n j : Nat} {ts : List Kind} (stops : Stops n ts)
    {find : Symbol → Option α} (ranked : ∀ s a, find s = some a → joint s = some j) (le : n ≤ j) :
    (ahead ts).bind find = none := by
  cases first : ahead ts with
  | none => rfl
  | some s =>
    cases found : find s with
    | none => simpa using found
    | some a => exact absurd first (stops.ahead_ne (ranked s a found) le)

theorem joint_assignOp? (s : Symbol) (op : AssignOp) (found : assignOp? s = some op) :
    joint s = some 0 := by
  cases s <;> first | rfl | cases found

theorem joint_trailingOp? (s : Symbol) (op : UnaryOp) (found : trailingOp? s = some op) :
    joint s = some 9 := by
  cases s <;> first | rfl | cases found

theorem joint_sign (op : BinaryOp) : joint op.sign = some op.rank := by
  cases op <;> rfl

theorem joint_level {k : Nat} {level : Level} {tighter : List Level}
    (here : precedence.drop k = level :: tighter) (s : Symbol) (op : BinaryOp)
    (found : level.lookup s = some op) : joint s = some (k + 1) := by
  obtain ⟨rfl, rank⟩ := (lookup_level here).mp found
  rw [joint_sign, rank]

def Begins (n : Nat) : Kind → Prop
  | .symbol s => s = .leftParen ∨ s = .leftBrace ∨ n ≤ 8 ∧ (leadingOp? s).isSome
  | _ => True

theorem begins_of_phrase {n : Nat} {ts : List Kind} {e : Expr} (phrase : Phrase n ts e) :
    ∃ k more, ts = k :: more ∧ Begins n k := by
  induction phrase with
  | number | text | bool | globalVar | localVar | call => exact ⟨_, _, rfl, trivial⟩
  | group => exact ⟨_, _, rfl, .inl rfl⟩
  | array => exact ⟨_, _, rfl, .inr (.inl rfl)⟩
  | @leading op side ts e operand ih =>
    refine ⟨_, _, rfl, .inr (.inr ⟨Nat.le_refl 8, ?_⟩)⟩
    cases op <;> rfl
  | member _ _ ih | trailing _ _ ih =>
    obtain ⟨k, more, rfl, start⟩ := ih
    exact ⟨k, _, rfl, start⟩
  | power _ _ ih | assign _ _ _ ih =>
    obtain ⟨k, more, rfl, start⟩ := ih
    refine ⟨k, _, rfl, ?_⟩
    cases k <;> simp_all [Begins]
  | binary _ _ _ ih =>
    obtain ⟨k, more, rfl, start⟩ := ih
    exact ⟨k, _, rfl, start⟩
  | tighter _ ih =>
    obtain ⟨k, more, rfl, start⟩ := ih
    refine ⟨k, more, rfl, ?_⟩
    cases k with
    | symbol s =>
      rcases start with paren | brace | ⟨le, leading⟩
      · exact .inl paren
      · exact .inr (.inl brace)
      · exact .inr (.inr ⟨by omega, leading⟩)
    | _ => trivial

theorem ahead_of_phrase {n : Nat} {ts : List Kind} {e : Expr} (phrase : Phrase n ts e)
    {s : Symbol} (stray : ¬ Begins n (.symbol s)) (rest : List Kind) :
    ahead (ts ++ rest) ≠ some s := by
  obtain ⟨k, more, rfl, start⟩ := begins_of_phrase phrase
  intro first
  cases k <;> cases first
  exact stray start

/-- The reading function for phrases of a rank. -/
def readAt (n : Nat) (ts : List Kind) : Except Mismatch (Expr × List Kind) :=
  if n = 0 then plain (expression ts)
  else if n ≤ 7 then plain (binary (precedence.drop (n - 1)) ts)
  else if n = 8 then plain (unary ts)
  else if n = 9 then plain (suffixed ts)
  else plain (primary ts)

/-- What the reading function does after a phrase of the rank: where phrases grow to the right, it
    goes on. -/
def goOn (n : Nat) (e : Expr) (ts : List Kind) : Except Mismatch (Expr × List Kind) :=
  if n = 9 then plain (suffixes e ts)
  else
    match n, precedence.drop (n - 1) with
    | _ + 1, level :: tighter => plain (chain level tighter e ts)
    | _, _ => .ok (e, ts)

/-- Where phrases grow to the right, only tighter symbols must not follow. -/
def limit (n : Nat) : Nat := if n = 9 ∨ 1 ≤ n ∧ n ≤ 6 then n + 1 else n

def Completes (n : Nat) (ts : List Kind) (e : Expr) : Prop :=
  ∀ rest, Stops (limit n) rest → readAt n (ts ++ rest) = goOn n e rest

theorem readAt_seven (ts : List Kind) : readAt 7 ts = plain (power ts) := plain_binary_nil ts

theorem readAt_level {k : Nat} (bound : k < 7) (ts : List Kind) :
    readAt (k + 1) ts = plain (binary (precedence.drop k) ts) := by
  simp only [readAt, Nat.add_one_ne_zero, Nat.add_sub_cancel, ↓reduceIte]
  rw [if_pos (by omega)]

theorem goOn_level {k : Nat} {level : Level} {tighter : List Level}
    (here : precedence.drop k = level :: tighter) (e : Expr) (ts : List Kind) :
    goOn (k + 1) e ts = plain (chain level tighter e ts) := by
  have bound := place_bound here
  unfold goOn
  rw [if_neg (by omega)]
  simp only [Nat.add_sub_cancel, here]

theorem goOn_stop {n : Nat} {e : Expr} {ts : List Kind} (stops : Stops n ts) (bound : n ≤ 10) :
    goOn n e ts = .ok (e, ts) := by
  unfold goOn
  split
  · rename_i nine
    subst nine
    rw [plain_suffixes, if_neg (stops.ahead_ne (j := 9) rfl (by omega)),
      stops.bind_none joint_trailingOp? (by omega)]
  · split
    · rename_i k level tighter here
      rw [plain_chain, stops.bind_none (joint_level here) (by omega)]
    · rfl

theorem Completes.stop {n : Nat} {ts : List Kind} {e : Expr} (complete : Completes n ts e)
    (bound : n ≤ 10) (rest : List Kind) (stops : Stops n rest) :
    readAt n (ts ++ rest) = .ok (e, rest) := by
  rw [complete rest (stops.mono (by unfold limit; split <;> omega)), goOn_stop stops bound]

theorem completes_tighter {n : Nat} {ts : List Kind} {e : Expr} (phrase : Phrase (n + 1) ts e)
    (complete : Completes (n + 1) ts e) : Completes n ts e := by
  have bound := rank_le_ten phrase
  intro rest stops
  have read := complete.stop bound rest (stops.mono (by unfold limit; split <;> omega))
  by_cases leftward : 1 ≤ n ∧ n ≤ 6
  · obtain ⟨k, rfl⟩ : ∃ k, n = k + 1 := ⟨n - 1, by omega⟩
    obtain ⟨level, tighter, here⟩ := level_at (k := k) (by omega)
    rw [readAt_level (by omega), levels_after here] at read
    rw [readAt_level (by omega), goOn_level here, here, plain_binary_cons, read]
    rfl
  · have place : n = 0 ∨ n = 7 ∨ n = 8 ∨ n = 9 := by omega
    rcases place with rfl | rfl | rfl | rfl
    · have loose : (ahead rest).bind assignOp? = none :=
        stops.bind_none joint_assignOp? (Nat.le_refl 0)
      change plain (binary precedence (ts ++ rest)) = .ok (e, rest) at read
      change plain (expression (ts ++ rest)) = .ok (e, rest)
      rw [plain_expression, read]
      simp only [bind, Except.bind, loose]
    · have loose : ahead rest ≠ some .caret := stops.ahead_ne (j := 7) rfl (Nat.le_refl 7)
      change plain (unary (ts ++ rest)) = .ok (e, rest) at read
      rw [readAt_seven, plain_power, read]
      simp only [bind, Except.bind, loose, ↓reduceIte]
      rfl
    · have start : (ahead (ts ++ rest)).bind leadingOp? = none := by
        refine Option.bind_eq_none_iff.mpr fun s first => ?_
        by_contra leading
        refine ahead_of_phrase phrase ?_ rest first
        rintro (rfl | rfl | ⟨le, _⟩)
        · exact leading rfl
        · exact leading rfl
        · omega
      change plain (suffixed (ts ++ rest)) = .ok (e, rest) at read
      change plain (unary (ts ++ rest)) = .ok (e, rest)
      rw [plain_unary, start]
      exact read
    · change plain (primary (ts ++ rest)) = .ok (e, rest) at read
      change plain (suffixed (ts ++ rest)) = plain (suffixes e rest)
      rw [plain_suffixed, read]
      rfl

theorem Completes.upTo {ts : List Kind} {e : Expr} (complete : Completes 0 ts e) {s : Symbol}
    (free : joint s = none) (rest : List Kind) :
    plain (expression (ts ++ .symbol s :: rest)) = .ok (e, .symbol s :: rest) :=
  complete.stop (by omega) (.symbol s :: rest) (stops_symbol (by simp [free]) rest)

theorem itemsFrom_complete (closing : Symbol) (expected : Expected) (free : joint closing = none)
    (apart : closing ≠ .comma) {p : List Kind × Expr} {pieces : List (List Kind × Expr)}
    (each : ∀ q ∈ p :: pieces, Completes 0 q.1 q.2) (rest : List Kind) :
    plainList (itemsFrom closing expected
        (separated .comma ((p :: pieces).map (·.1)) ++ .symbol closing :: rest)) =
      .ok ((p :: pieces).map (·.2), rest) := by
  induction pieces generalizing p with
  | nil =>
    have read := (each p (by simp)).upTo free rest
    rw [List.map_singleton, separated_single, plain_itemsFrom, read]
    simp [bind, Except.bind, ahead, apart]
  | cons q pieces ih =>
    rw [List.forall_mem_cons] at each
    have read := each.1.upTo (s := .comma) rfl
      (separated .comma ((q :: pieces).map (·.1)) ++ .symbol closing :: rest)
    have others := ih each.2
    rw [List.map_cons, List.map_cons, separated_cons, ← List.map_cons, List.append_assoc,
      List.cons_append, plain_itemsFrom, read]
    simp only [bind, Except.bind, ahead, ↓reduceIte, List.tail_cons, others, List.map_cons]

theorem items_complete (closing : Symbol) (expected : Expected) (free : joint closing = none)
    (apart : closing ≠ .comma) (stray : ¬ Begins 0 (.symbol closing))
    {pieces : List (List Kind × Expr)} (phrases : ∀ q ∈ pieces, Phrase 0 q.1 q.2)
    (each : ∀ q ∈ pieces, Completes 0 q.1 q.2) (rest : List Kind) :
    plainList (items closing expected
        (separated .comma (pieces.map (·.1)) ++ .symbol closing :: rest)) =
      .ok (pieces.map (·.2), rest) := by
  rw [plain_items]
  cases pieces with
  | nil => simp [separated, ahead]
  | cons p pieces =>
    have start : ahead (separated .comma ((p :: pieces).map (·.1)) ++ .symbol closing :: rest) ≠
        some closing := by
      have first := ahead_of_phrase (phrases p (by simp)) stray
      cases pieces with
      | nil => simpa [separated_single] using first _
      | cons q pieces => simpa [separated_cons] using first _
    rw [if_neg start]
    exact itemsFrom_complete closing expected free apart each rest

theorem completes {n : Nat} {ts : List Kind} {e : Expr} (phrase : Phrase n ts e) :
    Completes n ts e := by
  induction phrase with
  | number x | text s | bool b | globalVar name =>
    intro rest stops
    exact plain_primary _
  | localVar name =>
    intro rest stops
    have loose : ahead rest ≠ some .leftParen := stops.ahead_ne (j := 10) rfl (Nat.le_refl 10)
    change plain (primary (.name name :: rest)) = .ok (.localVar name, rest)
    rw [plain_primary]
    simp only [loose, ↓reduceIte]
  | @group ts e inner ih =>
    intro rest stops
    have read := ih.upTo (s := .rightParen) rfl rest
    change plain (primary _) = .ok (e, rest)
    rw [plain_primary]
    simp [read, bind, Except.bind, ahead]
  | @call name args each ih =>
    intro rest stops
    have read := items_complete .rightParen .argumentsEnd rfl (by decide)
      (by simp [Begins, leadingOp?]) each ih rest
    change plain (primary _) = .ok (.call name _, rest)
    rw [plain_primary]
    simp [read, bind, Except.bind, ahead]
  | @array items each ih =>
    intro rest stops
    have read := items_complete .rightBrace .arrayEnd rfl (by decide)
      (by simp [Begins, leadingOp?]) each ih rest
    change plain (primary _) = .ok (.array _, rest)
    rw [plain_primary]
    simp [read, bind, Except.bind]
  | @member ts us object key outer inner outer_ih inner_ih =>
    intro rest stops
    have read := outer_ih (.symbol .leftBracket :: us ++ .symbol .rightBracket :: rest)
      (stops_symbol (by simp [joint, limit]) _)
    have key_read := inner_ih.upTo (s := .rightBracket) rfl rest
    change plain (suffixed _) = plain (suffixes _ _) at read
    change plain (suffixed _) = plain (suffixes _ _)
    rw [plain_suffixes] at read
    rw [List.append_assoc, List.append_assoc]
    simpa [ahead, key_read, bind, Except.bind] using read
  | @trailing op side ts e operand ih =>
    intro rest stops
    have read := ih (.symbol op.sign :: rest)
      (stops_symbol (by cases op <;> simp [joint, limit, UnaryOp.sign] at side ⊢) _)
    change plain (suffixed _) = plain (suffixes _ _) at read
    change plain (suffixed _) = plain (suffixes _ _)
    rw [plain_suffixes] at read
    rw [List.append_assoc]
    cases op <;> cases side <;> simpa [ahead, UnaryOp.sign, trailingOp?] using read
  | @leading op side ts e operand ih =>
    intro rest stops
    have read := ih.stop (by omega) rest stops
    change plain (unary _) = .ok _ at read
    change plain (unary _) = .ok (.unary op e, rest)
    rw [plain_unary]
    cases op <;> cases side <;>
      simp [ahead, UnaryOp.sign, leadingOp?, read, bind, Except.bind]
  | @power ts us base exponent left right left_ih right_ih =>
    intro rest stops
    have base_read := left_ih.stop (by omega) (.symbol .caret :: us ++ rest)
      (stops_symbol (by simp [joint]) _)
    have read := right_ih.stop (by omega) rest stops
    change plain (unary _) = .ok _ at base_read
    rw [readAt_seven] at read ⊢
    rw [plain_power, List.append_assoc, base_read]
    simp [bind, Except.bind, ahead, read]
    rfl
  | @binary op leftward ts us lhs rhs left right left_ih right_ih =>
    intro rest stops
    obtain ⟨k, rank, bound⟩ : ∃ k, op.rank = k + 1 ∧ k < 6 := by
      cases op <;> first | exact ⟨_, rfl, by decide⟩ | exact absurd rfl leftward
    obtain ⟨level, tighter, here⟩ := level_at bound
    have listed : level.lookup op.sign = some op := (lookup_level here).mpr ⟨rfl, rank⟩
    have own : limit op.rank = k + 2 := by
      unfold limit
      rw [rank, if_pos (by omega)]
    rw [own] at stops
    have lhs_read := left_ih (.symbol op.sign :: us ++ rest)
      (stops_symbol (by rw [joint_sign, own, rank]; rintro _ ⟨⟩; omega) _)
    rw [rank] at right_ih lhs_read ⊢
    have read := right_ih.stop (by omega) rest stops
    rw [readAt_level (by omega), levels_after here] at read
    rw [List.append_assoc, lhs_read, goOn_level here, goOn_level here, plain_chain]
    simp [ahead, listed, read, bind, Except.bind]
  | @assign op ts us target value left right left_ih right_ih =>
    intro rest stops
    have target_read := left_ih.stop (by omega) (.symbol op.sign :: us ++ rest)
      (stops_symbol (by cases op <;> simp [joint, AssignOp.sign]) _)
    have read := right_ih.stop (by omega) rest stops
    have found : assignOp? op.sign = some op := by cases op <;> rfl
    change plain (binary precedence _) = .ok _ at target_read
    change plain (expression _) = .ok _ at read
    change plain (expression _) = .ok (.assign target op value, rest)
    rw [plain_expression, List.append_assoc, target_read]
    simp [bind, Except.bind, ahead, found, read]
  | tighter phrase ih => exact completes_tighter phrase ih

theorem statement_start {ts : List Kind} {e : Expr} (phrase : Phrase 0 ts e) (rest : List Kind) :
    ts ++ rest ≠ [] ∧ ahead (ts ++ rest) ≠ some .semicolon := by
  refine ⟨?_, ahead_of_phrase phrase (by simp [Begins, leadingOp?]) rest⟩
  obtain ⟨k, more, rfl, _⟩ := begins_of_phrase phrase
  simp

theorem program_last {ts : List Kind} {es : List Expr} (statement : Statement ts es) :
    program ts = .ok es := by
  cases statement with
  | empty =>
    rw [program_eq]
    rfl
  | @expr ts e phrase =>
    have read := (completes phrase).stop (by omega) [] (stops_nil 0)
    obtain ⟨some_token, start⟩ := statement_start phrase []
    change plain (expression _) = .ok _ at read
    rw [List.append_nil] at read some_token start
    rw [program_eq, if_neg some_token, if_neg start, read]
    rfl

theorem program_statement {ts : List Kind} {es : List Expr} (statement : Statement ts es)
    (us : List Kind) :
    program (ts ++ .symbol .semicolon :: us) = (program us).map (es ++ ·) := by
  cases statement with
  | empty =>
    have skipped : program (.symbol .semicolon :: us) = program us := by
      rw [program_eq]
      rfl
    rw [List.nil_append, skipped]
    cases program us <;> rfl
  | @expr ts e phrase =>
    have read := (completes phrase).upTo (s := .semicolon) rfl us
    obtain ⟨some_token, start⟩ := statement_start phrase (.symbol .semicolon :: us)
    rw [program_eq, if_neg some_token, if_neg start, read]
    simp only [bind, Except.bind, ahead, reduceCtorEq, ↓reduceIte, List.tail_cons]
    cases program us <;> rfl

theorem program_stray {ts : List Kind} {e : Expr} (phrase : Phrase 0 ts e) {s : Symbol}
    (free : joint s = none) (inside : s ≠ .semicolon) (us : List Kind) :
    program (ts ++ .symbol s :: us) = .error ⟨.statementEnd, .symbol s :: us⟩ := by
  have read := (completes phrase).upTo free us
  obtain ⟨some_token, start⟩ := statement_start phrase (.symbol s :: us)
  rw [program_eq, if_neg some_token, if_neg start, read]
  simp [bind, Except.bind, ahead, inside]

theorem program_complete {ts : List Kind} {p : Program} (sentence : Sentence ts p) :
    program ts = .ok p := by
  obtain ⟨statements, each, rfl, rfl⟩ := sentence
  induction statements with
  | nil => exact program_last .empty
  | cons q rest ih =>
    rw [List.forall_mem_cons] at each
    cases rest with
    | nil => simpa [separated_single] using program_last each.1
    | cons r rest =>
      simp only [List.map_cons, separated_cons, List.flatten_cons] at ih ⊢
      rw [program_statement each.1, ih each.2]
      rfl

/-- The parser gives a program exactly if the grammar does, and then that one. -/
theorem program_iff {ts : List Kind} {p : Program} : program ts = .ok p ↔ Sentence ts p :=
  ⟨program_reads, program_complete⟩

end FlowScript.Parser
