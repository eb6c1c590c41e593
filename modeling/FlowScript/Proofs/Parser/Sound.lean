import Mathlib.Tactic.IntervalCases
import FlowScript.Proofs.Grammar.Phrase
import FlowScript.Proofs.Parser.Steps

/-!
What the parser accepts is in the grammar. Each function reads a phrase of its rank off the front of
the tokens. Main statement: a program that is read is what the grammar says the tokens mean.
-/
namespace FlowScript.Parser

open Token (Kind)
open Grammar

/-- The tokens begin with a phrase of the rank, and `rest` follows it. -/
def Reads (n : Nat) (ts : List Kind) (e : Expr) (rest : List Kind) : Prop :=
  ∃ used, ts = used ++ rest ∧ Phrase n used e

def ReadsList (closing : Symbol) (ts : List Kind) (pieces : List (List Kind × Expr))
    (rest : List Kind) : Prop :=
  ts = separated .comma (pieces.map (·.1)) ++ .symbol closing :: rest ∧
    ∀ p ∈ pieces, Phrase 0 p.1 p.2

theorem Reads.tighter {n : Nat} {ts rest : List Kind} {e : Expr} (reads : Reads (n + 1) ts e rest) :
    Reads n ts e rest := by
  obtain ⟨used, eq, phrase⟩ := reads
  exact ⟨used, eq, .tighter phrase⟩

theorem sign_of_assignOp? {s : Symbol} {op : AssignOp} (found : assignOp? s = some op) :
    op.sign = s := by
  cases s <;> cases found <;> rfl

theorem sign_of_leadingOp? {s : Symbol} {op : UnaryOp} (found : leadingOp? s = some op) :
    op.sign = s ∧ op.standsBefore = true := by
  cases s <;> cases found <;> exact ⟨rfl, rfl⟩

theorem sign_of_trailingOp? {s : Symbol} {op : UnaryOp} (found : trailingOp? s = some op) :
    op.sign = s ∧ op.standsBefore = false := by
  cases s <;> cases found <;> exact ⟨rfl, rfl⟩

theorem place_bound {k : Nat} {level : Level} {tighter : List Level}
    (here : precedence.drop k = level :: tighter) : k < 6 := by
  have size := congrArg List.length here
  simp [precedence] at size
  omega

theorem level_at {k : Nat} (bound : k < 6) :
    ∃ level tighter, precedence.drop k = level :: tighter := by
  interval_cases k <;> exact ⟨_, _, rfl⟩

theorem levels_after {k : Nat} {level : Level} {tighter : List Level}
    (here : precedence.drop k = level :: tighter) : precedence.drop (k + 1) = tighter := by
  rw [← List.tail_drop, here]
  rfl

theorem lookup_level {k : Nat} {level : Level} {tighter : List Level}
    (here : precedence.drop k = level :: tighter) {s : Symbol} {op : BinaryOp} :
    level.lookup s = some op ↔ op.sign = s ∧ op.rank = k + 1 := by
  have bound := place_bound here
  constructor
  · intro found
    interval_cases k <;> cases here <;> cases s <;> cases found <;> exact ⟨rfl, rfl⟩
  · rintro ⟨rfl, rank⟩
    interval_cases k <;> cases here <;> cases op <;> first | rfl | cases rank

theorem phrase_at_level {k : Nat} {level : Level} {tighter : List Level}
    (here : precedence.drop k = level :: tighter) {s : Symbol} {op : BinaryOp}
    (listed : level.lookup s = some op) {us vs : List Kind} {lhs rhs : Expr}
    (left : Phrase (k + 1) us lhs) (right : Phrase (k + 2) vs rhs) :
    Phrase (k + 1) (us ++ .symbol s :: vs) (.binary lhs op rhs) := by
  obtain ⟨rfl, rank⟩ := (lookup_level here).mp listed
  have leftward : op ≠ .power := by
    rintro rfl
    have bound := place_bound here
    have top : BinaryOp.power.rank = 7 := rfl
    omega
  rw [← rank] at left ⊢
  exact .binary leftward left (by rwa [rank])

/-- `before` is what `lhs` was read from. -/
theorem chain_reads {size k : Nat} {level : Level} {tighter : List Level}
    (here : precedence.drop k = level :: tighter)
    (below : ∀ ts : List Kind, ts.length ≤ size → ∀ e rest,
      plain (binary tighter ts) = .ok (e, rest) → Reads (k + 2) ts e rest)
    {lhs : Expr} {before ts : List Kind} (phrase : Phrase (k + 1) before lhs)
    (small : ts.length ≤ size) {e : Expr} {rest : List Kind}
    (done : plain (chain level tighter lhs ts) = .ok (e, rest)) :
    Reads (k + 1) (before ++ ts) e rest := by
  induction h : ts.length using Nat.strongRecOn generalizing lhs before ts with
  | ind n ih =>
    rw [plain_chain] at done
    split at done
    · cases done
      exact ⟨before, rfl, phrase⟩
    · rename_i op found
      obtain ⟨s, next, listed⟩ := Option.bind_eq_some_iff.mp found
      obtain ⟨⟨rhs, left⟩, read, last⟩ := bind_eq_ok.mp done
      have fewer := shorter_of_plain read
      have size := length_of_ahead next
      obtain ⟨used, eq, right⟩ := below ts.tail (by omega) rhs left read
      have joined := phrase_at_level here listed phrase right
      have whole := ih left.length (by omega) joined (by omega) last rfl
      rw [eq_of_ahead next, eq]
      simpa using whole

section Below

variable {size : Nat}
  (inner : ∀ ts : List Kind, ts.length < size → ∀ e rest, plain (expression ts) = .ok (e, rest) →
    Reads 0 ts e rest)

include inner

theorem itemsFrom_reads {closing : Symbol} {expected : Expected} {ts : List Kind}
    (small : ts.length < size) {es : List Expr} {rest : List Kind}
    (done : plainList (itemsFrom closing expected ts) = .ok (es, rest)) :
    ∃ p pieces, ReadsList closing ts (p :: pieces) rest ∧ es = (p :: pieces).map (·.2) := by
  induction h : ts.length using Nat.strongRecOn generalizing ts es rest with
  | ind n ih =>
    rw [plain_itemsFrom] at done
    obtain ⟨⟨first, left⟩, read, next⟩ := bind_eq_ok.mp done
    have fewer := shorter_of_plain read
    obtain ⟨used, rfl, phrase⟩ := inner ts small first left read
    dsimp only at next
    split at next
    · rename_i comma
      obtain ⟨⟨more, left'⟩, others, last⟩ := bind_eq_ok.mp next
      cases last
      have size := length_of_ahead comma
      obtain ⟨p, pieces, ⟨eq, each⟩, rfl⟩ := ih left.tail.length (by omega) (by omega) others rfl
      refine ⟨(used, first), p :: pieces, ⟨?_, List.forall_mem_cons.mpr ⟨phrase, each⟩⟩, rfl⟩
      rw [eq_of_ahead comma, eq]
      simp only [List.map_cons, separated_cons, List.append_assoc, List.cons_append]
    · split at next
      · rename_i closed
        cases next
        refine ⟨(used, first), [], ⟨?_, by simpa using phrase⟩, rfl⟩
        rw [List.map_singleton, separated_single, ← eq_of_ahead closed]
      · cases next

theorem items_reads {closing : Symbol} {expected : Expected} {ts : List Kind}
    (small : ts.length < size) {es : List Expr} {rest : List Kind}
    (done : plainList (items closing expected ts) = .ok (es, rest)) :
    ∃ pieces, ReadsList closing ts pieces rest ∧ es = pieces.map (·.2) := by
  rw [plain_items] at done
  split at done
  · rename_i closed
    cases done
    exact ⟨[], ⟨eq_of_ahead closed, by simp⟩, rfl⟩
  · obtain ⟨p, pieces, reads⟩ := itemsFrom_reads inner small done
    exact ⟨p :: pieces, reads⟩

theorem primary_reads {ts : List Kind} (small : ts.length ≤ size) {e : Expr} {rest : List Kind}
    (done : plain (primary ts) = .ok (e, rest)) : Reads 10 ts e rest := by
  rw [plain_primary] at done
  split at done
  · cases done
    exact ⟨_, rfl, .number _⟩
  · cases done
    exact ⟨_, rfl, .text _⟩
  · cases done
    exact ⟨_, rfl, .bool _⟩
  · cases done
    exact ⟨_, rfl, .globalVar _⟩
  · rename_i name after
    split at done
    · rename_i call
      obtain ⟨⟨args, left⟩, read, next⟩ := bind_eq_ok.mp done
      cases next
      have fewer : after.tail.length < size := by
        have := length_of_ahead call
        simp only [List.length_cons] at small
        omega
      obtain ⟨pieces, ⟨eq, each⟩, rfl⟩ := items_reads inner fewer read
      refine ⟨_, ?_, .call name each⟩
      rw [eq_of_ahead call, eq]
      simp
    · cases done
      exact ⟨[_], rfl, .localVar _⟩
  · rename_i s after
    have fewer : after.length < size := small
    split at done
    · rename_i group
      subst group
      obtain ⟨⟨e', left⟩, read, next⟩ := bind_eq_ok.mp done
      obtain ⟨used, rfl, phrase⟩ := inner after fewer e' left read
      dsimp only at next
      split at next
      · rename_i closed
        cases next
        refine ⟨_, ?_, .group phrase⟩
        simp [← eq_of_ahead closed]
      · cases next
    · split at done
      · rename_i brace
        subst brace
        obtain ⟨⟨list, left⟩, read, next⟩ := bind_eq_ok.mp done
        cases next
        obtain ⟨pieces, ⟨eq, each⟩, rfl⟩ := items_reads inner fewer read
        refine ⟨_, ?_, .array each⟩
        simp [eq]
      · cases done
  · cases done

theorem suffixes_reads {object : Expr} {before ts : List Kind} (phrase : Phrase 9 before object)
    (small : ts.length ≤ size) {e : Expr} {rest : List Kind}
    (done : plain (suffixes object ts) = .ok (e, rest)) : Reads 9 (before ++ ts) e rest := by
  induction h : ts.length using Nat.strongRecOn generalizing object before ts with
  | ind n ih =>
    rw [plain_suffixes] at done
    split at done
    · rename_i index
      obtain ⟨⟨key, left⟩, read, next⟩ := bind_eq_ok.mp done
      have size := length_of_ahead index
      have fewer := shorter_of_plain read
      obtain ⟨used, eq, inside⟩ := inner ts.tail (by omega) key left read
      dsimp only at next
      split at next
      · rename_i closed
        have size' := length_of_ahead closed
        have whole := ih left.tail.length (by omega) (.member phrase inside) (by omega) next rfl
        rw [eq_of_ahead index, eq, eq_of_ahead closed]
        simpa using whole
      · cases next
    · split at done
      · cases done
        exact ⟨before, rfl, phrase⟩
      · rename_i op found
        obtain ⟨s, next, trailing⟩ := Option.bind_eq_some_iff.mp found
        obtain ⟨sign, side⟩ := sign_of_trailingOp? trailing
        have size := length_of_ahead next
        have whole := ih ts.tail.length (by omega) (.trailing side phrase) (by omega) done rfl
        rw [eq_of_ahead next]
        simpa [sign] using whole

theorem suffixed_reads {ts : List Kind} (small : ts.length ≤ size) {e : Expr} {rest : List Kind}
    (done : plain (suffixed ts) = .ok (e, rest)) : Reads 9 ts e rest := by
  rw [plain_suffixed] at done
  obtain ⟨⟨first, left⟩, read, next⟩ := bind_eq_ok.mp done
  obtain ⟨used, rfl, phrase⟩ := primary_reads inner small read
  exact suffixes_reads inner (.tighter phrase) (by simp at small; omega) next

theorem unary_reads {ts : List Kind} (small : ts.length ≤ size) {e : Expr} {rest : List Kind}
    (done : plain (unary ts) = .ok (e, rest)) : Reads 8 ts e rest := by
  induction h : ts.length using Nat.strongRecOn generalizing ts e with
  | ind n ih =>
    rw [plain_unary] at done
    split at done
    · exact (suffixed_reads inner small done).tighter
    · rename_i op found
      obtain ⟨s, first, leading⟩ := Option.bind_eq_some_iff.mp found
      obtain ⟨sign, side⟩ := sign_of_leadingOp? leading
      obtain ⟨⟨operand, left⟩, read, next⟩ := bind_eq_ok.mp done
      cases next
      have size := length_of_ahead first
      obtain ⟨used, eq, phrase⟩ := ih ts.tail.length (by omega) (by omega) read rfl
      refine ⟨_, ?_, .leading side phrase⟩
      rw [eq_of_ahead first, eq, sign, List.cons_append]

theorem power_reads {ts : List Kind} (small : ts.length ≤ size) {e : Expr} {rest : List Kind}
    (done : plain (power ts) = .ok (e, rest)) : Reads 7 ts e rest := by
  induction h : ts.length using Nat.strongRecOn generalizing ts e with
  | ind n ih =>
    rw [plain_power] at done
    obtain ⟨⟨base, left⟩, read, next⟩ := bind_eq_ok.mp done
    have fewer := shorter_of_plain read
    have first := unary_reads inner small read
    dsimp only at next
    split at next
    · rename_i caret
      obtain ⟨⟨exponent, left'⟩, read', last⟩ := bind_eq_ok.mp next
      cases last
      obtain ⟨used, eq, left_phrase⟩ := first
      have size := length_of_ahead caret
      obtain ⟨used', eq', right_phrase⟩ := ih left.tail.length (by omega) (by omega) read' rfl
      refine ⟨_, ?_, .power left_phrase right_phrase⟩
      rw [eq, eq_of_ahead caret, eq', List.append_assoc, List.cons_append]
    · cases next
      exact first.tighter

theorem binary_reads {k : Nat} {levels : List Level} (bound : k ≤ 6)
    (here : precedence.drop k = levels) {ts : List Kind} (small : ts.length ≤ size) {e : Expr}
    {rest : List Kind} (done : plain (binary levels ts) = .ok (e, rest)) :
    Reads (k + 1) ts e rest := by
  induction levels generalizing k ts e rest with
  | nil =>
    have last : k = 6 := by
      have size := congrArg List.length here
      simp [precedence] at size
      omega
    subst last
    rw [plain_binary_nil] at done
    exact power_reads inner small done
  | cons level tighter ih =>
    have bound' := place_bound here
    have below : ∀ ts : List Kind, ts.length ≤ size → ∀ e rest,
        plain (binary tighter ts) = .ok (e, rest) → Reads (k + 2) ts e rest :=
      fun ts small e rest read => ih (by omega) (levels_after here) small read
    rw [plain_binary_cons] at done
    obtain ⟨⟨first, left⟩, read, next⟩ := bind_eq_ok.mp done
    have fewer := shorter_of_plain read
    obtain ⟨used, rfl, phrase⟩ := below ts small first left read
    exact chain_reads here below (.tighter phrase) (by omega) next

end Below

theorem expression_reads {ts : List Kind} {e : Expr} {rest : List Kind}
    (done : plain (expression ts) = .ok (e, rest)) : Reads 0 ts e rest := by
  induction h : ts.length using Nat.strongRecOn generalizing ts e rest with
  | ind n ih =>
    have inner : ∀ us : List Kind, us.length < n → ∀ e rest,
        plain (expression us) = .ok (e, rest) → Reads 0 us e rest :=
      fun us fewer _ _ read => ih us.length fewer read rfl
    rw [plain_expression] at done
    obtain ⟨⟨target, left⟩, read, next⟩ := bind_eq_ok.mp done
    have fewer := shorter_of_plain read
    have first := binary_reads inner (k := 0) (by omega) rfl (Nat.le_of_eq h) read
    dsimp only at next
    split at next
    · cases next
      exact first.tighter
    · rename_i op found
      obtain ⟨s, symbol, assigns⟩ := Option.bind_eq_some_iff.mp found
      obtain ⟨⟨value, left'⟩, read', last⟩ := bind_eq_ok.mp next
      cases last
      obtain ⟨used, eq, left_phrase⟩ := first
      have size := length_of_ahead symbol
      obtain ⟨used', eq', right_phrase⟩ := ih left.tail.length (by omega) read' rfl
      refine ⟨_, ?_, .assign op left_phrase right_phrase⟩
      rw [eq, eq_of_ahead symbol, eq', sign_of_assignOp? assigns, List.append_assoc,
        List.cons_append]

theorem program_reads {ts : List Kind} {p : Program} (done : program ts = .ok p) :
    Sentence ts p := by
  induction h : ts.length using Nat.strongRecOn generalizing ts p with
  | ind n ih =>
    rw [program_eq] at done
    split at done
    · rename_i none
      cases done
      rw [none]
      exact .empty
    · split at done
      · rename_i skip
        have size := length_of_ahead skip
        have later := ih ts.tail.length (by omega) done rfl
        rw [eq_of_ahead skip]
        exact .cons .empty later
      · obtain ⟨⟨first, left⟩, read, next⟩ := bind_eq_ok.mp done
        have fewer := shorter_of_plain read
        obtain ⟨used, eq, phrase⟩ := expression_reads read
        dsimp only at next
        split at next
        · rename_i none
          cases next
          rw [eq, none, List.append_nil]
          exact .single phrase
        · split at next
          · rename_i stop
            obtain ⟨more, read', last⟩ := bind_eq_ok.mp next
            cases last
            have size := length_of_ahead stop
            have later := ih left.tail.length (by omega) read' rfl
            rw [eq, eq_of_ahead stop]
            exact .cons (.expr phrase) later
          · cases next

end FlowScript.Parser
