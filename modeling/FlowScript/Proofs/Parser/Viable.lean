import FlowScript.Proofs.Parser.Complete
import FlowScript.Proofs.Parser.Lookahead

/-!
Where the parser stops when it fails. The tokens before that place can be completed: each function of
the parser has only taken what its part of the grammar allows. The token at that place cannot follow
them, since the parser has looked no further. Main statement: a failure is reported at the first
token that no continuation of the tokens before it begins with.
-/
namespace FlowScript.Parser

open Token (Kind)
open Grammar

theorem bind_eq_error {α β : Type} {x : Except Mismatch α} {f : α → Except Mismatch β}
    {m : Mismatch} : (x >>= f) = .error m ↔ x = .error m ∨ ∃ a, x = .ok a ∧ f a = .error m := by
  cases x <;> simp [bind, Except.bind]

/-- The tokens up to those that did not fit are the beginning of something with the property. -/
def Stuck (property : List Kind → Prop) (ts : List Kind) (m : Mismatch) : Prop :=
  ∃ used more, ts = used ++ m.rest ∧ property (used ++ more)

def IsPhrase (n : Nat) (ts : List Kind) : Prop := ∃ e, Phrase n ts e

def IsList (closing : Symbol) (ts : List Kind) : Prop :=
  ∃ p pieces, ReadsList closing ts (p :: pieces) []

def IsProgram (ts : List Kind) : Prop := ∃ p, Sentence ts p

theorem Stuck.within {inner outer : List Kind → Prop} {us : List Kind} {m : Mismatch}
    (stuck : Stuck inner us m) (before after : List Kind)
    (build : ∀ ws, inner ws → outer (before ++ ws ++ after)) : Stuck outer (before ++ us) m := by
  obtain ⟨used, more, eq, complete⟩ := stuck
  refine ⟨before ++ used, more ++ after, by rw [eq, List.append_assoc], ?_⟩
  simpa using build _ complete

theorem Stuck.mono {inner outer : List Kind → Prop} {ts : List Kind} {m : Mismatch}
    (stuck : Stuck inner ts m) (build : ∀ ws, inner ws → outer ws) : Stuck outer ts m := by
  obtain ⟨used, more, eq, complete⟩ := stuck
  exact ⟨used, more, eq, build _ complete⟩

theorem IsPhrase.tighter {n : Nat} (ts : List Kind) (phrase : IsPhrase (n + 1) ts) :
    IsPhrase n ts := by
  obtain ⟨e, phrase⟩ := phrase
  exact ⟨e, .tighter phrase⟩

theorem stuck_before (expected : Expected) (ts : List Kind) :
    Stuck (IsPhrase 10) ts ⟨expected, ts⟩ :=
  ⟨[], [.number 0], rfl, _, .number 0⟩

theorem reads_binary {k : Nat} {levels : List Level} (bound : k ≤ 6)
    (here : precedence.drop k = levels) {ts rest : List Kind} {e : Expr}
    (done : plain (binary levels ts) = .ok (e, rest)) : Reads (k + 1) ts e rest :=
  binary_reads (fun _ _ _ _ read => expression_reads read) bound here (Nat.le_refl _) done

theorem chain_stuck {size k : Nat} {level : Level} {tighter : List Level}
    (here : precedence.drop k = level :: tighter)
    (below : ∀ ts : List Kind, ts.length ≤ size → ∀ m,
      plain (binary tighter ts) = .error m → Stuck (IsPhrase (k + 2)) ts m)
    {lhs : Expr} {before ts : List Kind} (phrase : Phrase (k + 1) before lhs)
    (small : ts.length ≤ size) {m : Mismatch}
    (failed : plain (chain level tighter lhs ts) = .error m) :
    Stuck (IsPhrase (k + 1)) (before ++ ts) m := by
  induction h : ts.length using Nat.strongRecOn generalizing lhs before ts with
  | ind n ih =>
    rw [plain_chain] at failed
    split at failed
    · cases failed
    · rename_i op found
      obtain ⟨s, next, listed⟩ := Option.bind_eq_some_iff.mp found
      have size := length_of_ahead next
      rw [eq_of_ahead next]
      rcases bind_eq_error.mp failed with inside | ⟨⟨rhs, left⟩, read, later⟩
      · have stuck := below ts.tail (by omega) m inside
        rw [List.append_cons]
        refine stuck.within (before ++ [.symbol s]) [] ?_
        rintro ws ⟨rhs, right⟩
        exact ⟨_, by simpa using phrase_at_level here listed phrase right⟩
      · have fewer := shorter_of_plain read
        have bound := place_bound here
        obtain ⟨used, eq, right⟩ := reads_binary (by omega) (levels_after here) read
        have joined := phrase_at_level here listed phrase right
        have stuck := ih left.length (by omega) joined (by omega) later rfl
        rw [eq]
        simpa using stuck

section Below

variable {size : Nat}
  (inner : ∀ ts : List Kind, ts.length < size → ∀ m, plain (expression ts) = .error m →
    Stuck (IsPhrase 0) ts m)

include inner

theorem itemsFrom_stuck {closing : Symbol} {expected : Expected} {ts : List Kind}
    (small : ts.length < size) {m : Mismatch}
    (failed : plainList (itemsFrom closing expected ts) = .error m) :
    Stuck (IsList closing) ts m := by
  induction h : ts.length using Nat.strongRecOn generalizing ts with
  | ind n ih =>
    have single {ws : List Kind} {e : Expr} (phrase : Phrase 0 ws e) :
        IsList closing (ws ++ [.symbol closing]) :=
      ⟨(ws, e), [], by rw [List.map_singleton, separated_single], by simpa using phrase⟩
    rw [plain_itemsFrom] at failed
    rcases bind_eq_error.mp failed with inside | ⟨⟨first, left⟩, read, later⟩
    · refine (inner ts small m inside).within [] [.symbol closing] ?_
      rintro ws ⟨e, phrase⟩
      exact single phrase
    have fewer := shorter_of_plain read
    obtain ⟨used, rfl, phrase⟩ := expression_reads read
    dsimp only at later
    split at later
    · rename_i comma
      rcases bind_eq_error.mp later with inside | ⟨_, _, last⟩
      · have size := length_of_ahead comma
        have stuck := ih left.tail.length (by omega) (by omega) inside rfl
        rw [eq_of_ahead comma, List.append_cons]
        refine stuck.within (used ++ [.symbol .comma]) [] ?_
        rintro ws ⟨p, pieces, eq, each⟩
        refine ⟨(used, first), p :: pieces, ?_, List.forall_mem_cons.mpr ⟨phrase, each⟩⟩
        rw [eq]
        simp only [List.map_cons, separated_cons, List.append_assoc, List.cons_append,
          List.nil_append, List.append_nil]
      · cases last
    · split at later
      · cases later
      · cases later
        exact ⟨used, [.symbol closing], rfl, single phrase⟩

theorem items_stuck {closing : Symbol} {expected : Expected} {ts : List Kind}
    (small : ts.length < size) {m : Mismatch}
    (failed : plainList (items closing expected ts) = .error m) : Stuck (IsList closing) ts m := by
  rw [plain_items] at failed
  split at failed
  · cases failed
  · exact itemsFrom_stuck inner small failed

theorem primary_stuck {ts : List Kind} (small : ts.length ≤ size) {m : Mismatch}
    (failed : plain (primary ts) = .error m) : Stuck (IsPhrase 10) ts m := by
  rw [plain_primary] at failed
  split at failed
  · cases failed
  · cases failed
  · cases failed
  · cases failed
  · rename_i name after
    split at failed
    · rename_i call
      rcases bind_eq_error.mp failed with inside | ⟨_, _, last⟩
      · have fewer : after.tail.length < size := by
          have := length_of_ahead call
          simp only [List.length_cons] at small
          omega
        rw [eq_of_ahead call]
        refine (items_stuck inner fewer inside).within [.name name, .symbol .leftParen] [] ?_
        rintro ws ⟨p, pieces, eq, each⟩
        exact ⟨_, by simpa [eq] using .call name each⟩
      · cases last
    · cases failed
  · rename_i s after
    have fewer : after.length < size := small
    split at failed
    · rename_i group
      subst group
      rcases bind_eq_error.mp failed with inside | ⟨⟨e, left⟩, read, last⟩
      · refine (inner after fewer m inside).within [.symbol .leftParen] [.symbol .rightParen] ?_
        rintro ws ⟨e, phrase⟩
        exact ⟨e, .group phrase⟩
      · obtain ⟨used, rfl, phrase⟩ := expression_reads read
        dsimp only at last
        split at last
        · cases last
        · cases last
          exact ⟨.symbol .leftParen :: used, [.symbol .rightParen], rfl, e, .group phrase⟩
    · split at failed
      · rename_i brace
        subst brace
        rcases bind_eq_error.mp failed with inside | ⟨_, _, last⟩
        · refine (items_stuck inner fewer inside).within [.symbol .leftBrace] [] ?_
          rintro ws ⟨p, pieces, eq, each⟩
          exact ⟨_, by simpa [eq] using .array each⟩
        · cases last
      · cases failed
        exact stuck_before .expression _
  · cases failed
    exact stuck_before .expression _

theorem suffixes_stuck {object : Expr} {before ts : List Kind} (phrase : Phrase 9 before object)
    (small : ts.length ≤ size) {m : Mismatch} (failed : plain (suffixes object ts) = .error m) :
    Stuck (IsPhrase 9) (before ++ ts) m := by
  induction h : ts.length using Nat.strongRecOn generalizing object before ts with
  | ind n ih =>
    rw [plain_suffixes] at failed
    split at failed
    · rename_i index
      have size := length_of_ahead index
      rw [eq_of_ahead index]
      rcases bind_eq_error.mp failed with inside | ⟨⟨key, left⟩, read, later⟩
      · rw [List.append_cons]
        refine (inner ts.tail (by omega) m inside).within (before ++ [.symbol .leftBracket])
          [.symbol .rightBracket] ?_
        rintro ws ⟨key, inside⟩
        exact ⟨_, by simpa using Phrase.member phrase inside⟩
      · have fewer := shorter_of_plain read
        obtain ⟨used, eq, inside⟩ := expression_reads read
        dsimp only at later
        split at later
        · rename_i closed
          have size' := length_of_ahead closed
          have stuck := ih left.tail.length (by omega) (.member phrase inside) (by omega) later rfl
          rw [eq, eq_of_ahead closed]
          simpa using stuck
        · cases later
          refine ⟨before ++ .symbol .leftBracket :: used, [.symbol .rightBracket], ?_, ?_⟩
          · simp [eq]
          · exact ⟨_, .member phrase inside⟩
    · split at failed
      · cases failed
      · rename_i op found
        obtain ⟨s, next, trailing⟩ := Option.bind_eq_some_iff.mp found
        obtain ⟨sign, side⟩ := sign_of_trailingOp? trailing
        have size := length_of_ahead next
        have stuck := ih ts.tail.length (by omega) (.trailing side phrase) (by omega) failed rfl
        rw [eq_of_ahead next]
        simpa [sign] using stuck

theorem suffixed_stuck {ts : List Kind} (small : ts.length ≤ size) {m : Mismatch}
    (failed : plain (suffixed ts) = .error m) : Stuck (IsPhrase 9) ts m := by
  rw [plain_suffixed] at failed
  rcases bind_eq_error.mp failed with inside | ⟨⟨first, left⟩, read, later⟩
  · exact (primary_stuck inner small inside).mono IsPhrase.tighter
  · obtain ⟨used, rfl, phrase⟩ :=
      primary_reads (fun _ _ _ _ read => expression_reads read) (Nat.le_refl _) read
    exact suffixes_stuck inner (.tighter phrase) (by simp at small; omega) later

theorem unary_stuck {ts : List Kind} (small : ts.length ≤ size) {m : Mismatch}
    (failed : plain (unary ts) = .error m) : Stuck (IsPhrase 8) ts m := by
  induction h : ts.length using Nat.strongRecOn generalizing ts with
  | ind n ih =>
    rw [plain_unary] at failed
    split at failed
    · exact (suffixed_stuck inner small failed).mono IsPhrase.tighter
    · rename_i op found
      obtain ⟨s, first, leading⟩ := Option.bind_eq_some_iff.mp found
      obtain ⟨rfl, side⟩ := sign_of_leadingOp? leading
      have size := length_of_ahead first
      rcases bind_eq_error.mp failed with inside | ⟨_, _, last⟩
      · have stuck := ih ts.tail.length (by omega) (by omega) inside rfl
        rw [eq_of_ahead first]
        refine stuck.within [.symbol op.sign] [] ?_
        rintro ws ⟨e, operand⟩
        exact ⟨_, by simpa using Phrase.leading side operand⟩
      · cases last

theorem power_stuck {ts : List Kind} (small : ts.length ≤ size) {m : Mismatch}
    (failed : plain (power ts) = .error m) : Stuck (IsPhrase 7) ts m := by
  induction h : ts.length using Nat.strongRecOn generalizing ts with
  | ind n ih =>
    rw [plain_power] at failed
    rcases bind_eq_error.mp failed with inside | ⟨⟨base, left⟩, read, later⟩
    · exact (unary_stuck inner small inside).mono IsPhrase.tighter
    have fewer := shorter_of_plain read
    obtain ⟨used, eq, left_phrase⟩ :=
      unary_reads (fun _ _ _ _ read => expression_reads read) (Nat.le_refl _) read
    dsimp only at later
    split at later
    · rename_i caret
      have size := length_of_ahead caret
      rcases bind_eq_error.mp later with inside | ⟨_, _, last⟩
      · have stuck := ih left.tail.length (by omega) (by omega) inside rfl
        rw [eq, eq_of_ahead caret, List.append_cons]
        refine stuck.within (used ++ [.symbol .caret]) [] ?_
        rintro ws ⟨exponent, right_phrase⟩
        exact ⟨_, by simpa using Phrase.power left_phrase right_phrase⟩
      · cases last
    · cases later

theorem binary_stuck {k : Nat} {levels : List Level} (bound : k ≤ 6)
    (here : precedence.drop k = levels) {ts : List Kind} (small : ts.length ≤ size) {m : Mismatch}
    (failed : plain (binary levels ts) = .error m) : Stuck (IsPhrase (k + 1)) ts m := by
  induction levels generalizing k ts m with
  | nil =>
    have last : k = 6 := by
      have size := congrArg List.length here
      simp [precedence] at size
      omega
    subst last
    rw [plain_binary_nil] at failed
    exact power_stuck inner small failed
  | cons level tighter ih =>
    have bound' := place_bound here
    have below : ∀ ts : List Kind, ts.length ≤ size → ∀ m,
        plain (binary tighter ts) = .error m → Stuck (IsPhrase (k + 2)) ts m :=
      fun ts small m failed => ih (by omega) (levels_after here) small failed
    rw [plain_binary_cons] at failed
    rcases bind_eq_error.mp failed with inside | ⟨⟨first, left⟩, read, later⟩
    · exact (below ts small m inside).mono IsPhrase.tighter
    · have fewer := shorter_of_plain read
      obtain ⟨used, rfl, phrase⟩ := reads_binary (by omega) (levels_after here) read
      exact chain_stuck here below (.tighter phrase) (by omega) later

end Below

theorem expression_stuck {ts : List Kind} {m : Mismatch}
    (failed : plain (expression ts) = .error m) : Stuck (IsPhrase 0) ts m := by
  induction h : ts.length using Nat.strongRecOn generalizing ts m with
  | ind n ih =>
    have inner : ∀ us : List Kind, us.length < n → ∀ m, plain (expression us) = .error m →
        Stuck (IsPhrase 0) us m :=
      fun us fewer _ failed => ih us.length fewer failed rfl
    rw [plain_expression] at failed
    rcases bind_eq_error.mp failed with inside | ⟨⟨target, left⟩, read, later⟩
    · exact (binary_stuck inner (k := 0) (by omega) rfl (Nat.le_of_eq h) inside).mono
        IsPhrase.tighter
    have fewer := shorter_of_plain read
    obtain ⟨used, eq, left_phrase⟩ := reads_binary (k := 0) (by omega) rfl read
    dsimp only at later
    split at later
    · cases later
    · rename_i op found
      obtain ⟨s, symbol, assigns⟩ := Option.bind_eq_some_iff.mp found
      obtain rfl := sign_of_assignOp? assigns
      have size := length_of_ahead symbol
      rcases bind_eq_error.mp later with inside | ⟨_, _, last⟩
      · have stuck := inner left.tail (by omega) m inside
        rw [eq, eq_of_ahead symbol, List.append_cons]
        refine stuck.within (used ++ [.symbol op.sign]) [] ?_
        rintro ws ⟨value, right_phrase⟩
        exact ⟨_, by simpa using Phrase.assign op left_phrase right_phrase⟩
      · cases last

theorem program_stuck {ts : List Kind} {m : Mismatch} (failed : program ts = .error m) :
    Stuck IsProgram ts m := by
  induction h : ts.length using Nat.strongRecOn generalizing ts with
  | ind n ih =>
    rw [program_eq] at failed
    split at failed
    · cases failed
    split at failed
    · rename_i skip
      have size := length_of_ahead skip
      rw [eq_of_ahead skip]
      refine (ih ts.tail.length (by omega) failed rfl).within [.symbol .semicolon] [] ?_
      rintro ws ⟨p, later⟩
      exact ⟨_, by simpa using Sentence.cons .empty later⟩
    rcases bind_eq_error.mp failed with inside | ⟨⟨first, left⟩, read, later⟩
    · refine (expression_stuck inside).mono ?_
      rintro ws ⟨e, phrase⟩
      exact ⟨_, .single phrase⟩
    have fewer := shorter_of_plain read
    obtain ⟨used, eq, phrase⟩ := expression_reads read
    dsimp only at later
    split at later
    · cases later
    split at later
    · rename_i stop
      rcases bind_eq_error.mp later with inside | ⟨_, _, last⟩
      · have size := length_of_ahead stop
        rw [eq, eq_of_ahead stop, List.append_cons]
        refine (ih left.tail.length (by omega) inside rfl).within (used ++ [.symbol .semicolon]) [] ?_
        rintro ws ⟨p, rest⟩
        exact ⟨_, by simpa using Sentence.cons (.expr phrase) rest⟩
      · cases last
    · cases later
      exact ⟨used, [], eq, _, by simpa using .single phrase⟩

/-- The parser accepts the tokens with some others after them. -/
def Viable (tokens : List Token) : Prop := ∃ more stop p, read (tokens ++ more) stop = .ok p

theorem read_eq_error {tokens : List Token} {stop : Position} {failure : Failure} :
    read tokens stop = .error failure ↔ ∃ m, program (tokens.map (·.kind)) = .error m ∧
      failure = ⟨m.expected, placeOfLast m.rest.length tokens stop⟩ := by
  unfold read
  cases program (tokens.map (·.kind)) with
  | ok p => simp
  | error m => simp [eq_comm]

theorem viable_of_program {tokens : List Token} {more : List Kind}
    (complete : IsProgram (tokens.map (·.kind) ++ more)) : Viable tokens := by
  obtain ⟨p, sentence⟩ := complete
  refine ⟨more.map fun k => ⟨k, [], .start⟩, .start, p, ?_⟩
  have kinds : (tokens ++ more.map fun k => (⟨k, [], .start⟩ : Token)).map (·.kind) =
      tokens.map (·.kind) ++ more := by
    simp [Function.comp_def]
  rw [read, kinds, program_complete sentence]

theorem placeOfLast_take {tokens more : List Token} {stop other : Position} {i : Nat}
    (before : i < tokens.length) :
    placeOfLast (more.length + 1) (tokens.take (i + 1) ++ more) other =
      placeOfLast (tokens.length - i) tokens stop := by
  have size : (tokens.take (i + 1) ++ more).length = i + 1 + more.length := by
    rw [List.length_append, List.length_take, Nat.min_eq_left before]
  have here : (tokens.map (·.position) ++ [stop])[i]? =
      some (placeOfLast (tokens.length - i) tokens stop) :=
    Cursor.place_of_rest (Nat.le_of_lt before)
  have there : ((tokens.take (i + 1) ++ more).map (·.position) ++ [other])[i]? =
      some (placeOfLast ((tokens.take (i + 1) ++ more).length - i) (tokens.take (i + 1) ++ more)
        other) := Cursor.place_of_rest (by omega)
  have rest : i + 1 + more.length - i = more.length + 1 := by omega
  rw [size, rest] at there
  rw [List.getElem?_append_left (by simpa using before), List.getElem?_map] at here
  rw [List.getElem?_append_left (by simp; omega), List.getElem?_map,
    List.getElem?_append_left (by simp; omega), List.getElem?_take_of_lt (Nat.lt_succ_self i),
    here] at there
  exact (Option.some.inj there).symm

/-- A failure is reported at a token, or at the end, such that the tokens before it are the beginning
    of some that the parser accepts. With a token there, they no longer are: whatever follows it, the
    parser fails in the same way at the same place. -/
theorem failure_is_at_the_first_misfit {tokens : List Token} {stop : Position} {failure : Failure}
    (failed : read tokens stop = .error failure) :
    ∃ i, i ≤ tokens.length ∧ (tokens.map (·.position) ++ [stop])[i]? = some failure.position ∧
      Viable (tokens.take i) ∧
      (i < tokens.length → ¬ Viable (tokens.take (i + 1)) ∧
        ∀ more other, read (tokens.take (i + 1) ++ more) other = .error failure) := by
  obtain ⟨m, mismatch, rfl⟩ := read_eq_error.mp failed
  obtain ⟨used, more, eq, complete⟩ := program_stuck mismatch
  obtain ⟨used', eq', alike⟩ := program_fails_alike mismatch
  obtain rfl : used' = used := List.append_cancel_right (eq'.symm.trans eq)
  have size := congrArg List.length eq
  rw [List.length_map, List.length_append] at size
  have taken : (tokens.take used'.length).map (·.kind) = used' := by
    rw [List.map_take, eq, List.take_left]
  have last : tokens.length - used'.length = m.rest.length := by omega
  refine ⟨used'.length, by omega, ?_, ?_, ?_⟩
  · rw [Cursor.place_of_rest (by omega), last]
  · exact viable_of_program (by rwa [taken])
  · intro before
    have again : ∀ more other, read (tokens.take (used'.length + 1) ++ more) other =
        .error ⟨m.expected, placeOfLast m.rest.length tokens stop⟩ := by
      intro more other
      cases rest : m.rest with
      | nil =>
        rw [rest, List.length_nil] at size
        omega
      | cons k later =>
        have kinds : (tokens.take (used'.length + 1) ++ more).map (·.kind) =
            used' ++ k :: more.map (·.kind) := by
          rw [List.map_append, List.map_take, eq, rest, List.take_length_add_append]
          simp
        refine read_eq_error.mpr ⟨_, by rw [kinds]; exact alike k later rest _, ?_⟩
        rw [← rest, ← last]
        simp only [List.length_cons, List.length_map]
        rw [placeOfLast_take before]
    refine ⟨?_, again⟩
    rintro ⟨more, other, p, accepted⟩
    rw [again] at accepted
    cases accepted

theorem expression_of_primary {ts : List Kind} {m : Mismatch}
    (start : (ahead ts).bind leadingOp? = none) (failed : plain (primary ts) = .error m) :
    plain (expression ts) = .error m := by
  simp [plain_expression, precedence, plain_binary_cons, plain_binary_nil, plain_power, plain_unary,
    start, plain_suffixed, failed, bind, Except.bind]

def cutOffCall : List Token :=
  [⟨.name "f", ['f'], ⟨1, 1⟩⟩, ⟨.symbol .leftParen, ['('], ⟨1, 2⟩⟩, ⟨.number 1, ['1'], ⟨1, 3⟩⟩,
   ⟨.symbol .semicolon, [';'], ⟨1, 4⟩⟩]

theorem failure_is_at_the_first_misfit_call :
    read cutOffCall ⟨1, 5⟩ = .error ⟨.argumentsEnd, ⟨1, 4⟩⟩ ∧
      ∃ i, i ≤ cutOffCall.length ∧
        (cutOffCall.map (·.position) ++ [⟨1, 5⟩])[i]? = some ⟨1, 4⟩ ∧
        Viable (cutOffCall.take i) ∧
        (i < cutOffCall.length → ¬ Viable (cutOffCall.take (i + 1))) := by
  have one : plain (expression [.number 1, .symbol .semicolon]) =
      .ok (.number 1, [.symbol .semicolon]) :=
    (completes ((Phrase.number 1).looser (Nat.zero_le 10))).upTo rfl []
  have call : plain (primary (cutOffCall.map (·.kind))) =
      .error ⟨.argumentsEnd, [.symbol .semicolon]⟩ := by
    simp [cutOffCall, plain_primary, ahead, plain_items, plain_itemsFrom, one, bind, Except.bind]
  have mismatch : program (cutOffCall.map (·.kind)) =
      .error ⟨.argumentsEnd, [.symbol .semicolon]⟩ := by
    rw [program_eq, expression_of_primary rfl call]
    rfl
  have failed : read cutOffCall ⟨1, 5⟩ = .error ⟨.argumentsEnd, ⟨1, 4⟩⟩ :=
    read_eq_error.mpr ⟨_, mismatch, rfl⟩
  obtain ⟨i, inside, place, viable, misfit⟩ := failure_is_at_the_first_misfit failed
  exact ⟨failed, i, inside, place, viable, fun before => (misfit before).1⟩

end FlowScript.Parser
