import FlowScript.Proofs.Grammar.Phrase

/-!
The words in which a program is written down. Parentheses stand only around an expression whose own
rank is too loose for its place. Main statements: the words of an expression are a phrase of the
rank asked for, and no such phrase has fewer of them.
-/
namespace FlowScript

open Token (Kind)
open Grammar

def enclosed (ts : List Kind) : List Kind := .symbol .leftParen :: ts ++ [.symbol .rightParen]

/-- Tokens of the rank `own` in a place for phrases of the rank `n`. -/
def fitted (own n : Nat) (ts : List Kind) : List Kind := if own < n then enclosed ts else ts

namespace Expr

mutual

/-- The tokens of an expression in a place for phrases of the rank `n`. -/
def words : Expr → Nat → List Kind
  | number x, _ => [.number x]
  | text s, _ => [.text s]
  | bool b, _ => [.bool b]
  | localVar name, _ => [.name name]
  | globalVar name, _ => [.global name]
  | array items, _ =>
    .symbol .leftBrace :: separated .comma (wordsOfAll items) ++ [.symbol .rightBrace]
  | call name args, _ =>
    .name name :: .symbol .leftParen :: separated .comma (wordsOfAll args) ++ [.symbol .rightParen]
  | member object key, n =>
    fitted 9 n (words object 9 ++ .symbol .leftBracket :: words key 0 ++ [.symbol .rightBracket])
  | unary op e, n =>
    if op.standsBefore then fitted 8 n (.symbol op.sign :: words e 8)
    else fitted 9 n (words e 9 ++ [.symbol op.sign])
  | binary lhs op rhs, n =>
    if op = .power then fitted 7 n (words lhs 8 ++ .symbol .caret :: words rhs 7)
    else fitted op.rank n (words lhs op.rank ++ .symbol op.sign :: words rhs (op.rank + 1))
  | assign target op value, n =>
    fitted 0 n (words target 1 ++ .symbol op.sign :: words value 0)

def wordsOfAll : List Expr → List (List Kind)
  | [] => []
  | e :: es => words e 0 :: wordsOfAll es

end

theorem wordsOfAll_eq (es : List Expr) : wordsOfAll es = es.map (words · 0) := by
  induction es with
  | nil => rfl
  | cons e rest ih => rw [wordsOfAll, ih, List.map_cons]

end Expr

namespace Expr

mutual

def leaves : Expr → List Kind
  | number x => [.number x]
  | text s => [.text s]
  | bool b => [.bool b]
  | localVar name => [.name name]
  | globalVar name => [.global name]
  | array items => leavesOfAll items
  | call name args => .name name :: leavesOfAll args
  | member object key => leaves object ++ leaves key
  | unary _ e => leaves e
  | binary lhs _ rhs => leaves lhs ++ leaves rhs
  | assign target _ value => leaves target ++ leaves value

def leavesOfAll : List Expr → List Kind
  | [] => []
  | e :: es => leaves e ++ leavesOfAll es

end

mutual

def mapNumbers (f : Float → Float) : Expr → Expr
  | number x => number (f x)
  | text s => text s
  | bool b => bool b
  | localVar name => localVar name
  | globalVar name => globalVar name
  | array items => array (mapNumbersOfAll f items)
  | call name args => call name (mapNumbersOfAll f args)
  | member object key => member (mapNumbers f object) (mapNumbers f key)
  | unary op e => unary op (mapNumbers f e)
  | binary lhs op rhs => binary (mapNumbers f lhs) op (mapNumbers f rhs)
  | assign target op value => assign (mapNumbers f target) op (mapNumbers f value)

def mapNumbersOfAll (f : Float → Float) : List Expr → List Expr
  | [] => []
  | e :: es => mapNumbers f e :: mapNumbersOfAll f es

end

end Expr

def Token.Kind.mapNumber (f : Float → Float) : Kind → Kind
  | .number x => .number (f x)
  | k => k

def Token.Kind.isLeaf : Kind → Bool
  | .symbol _ => false
  | _ => true

theorem filter_separated (s : Symbol) (pieces : List (List Kind)) :
    (separated s pieces).filter Kind.isLeaf = (pieces.map (·.filter Kind.isLeaf)).flatten := by
  induction pieces with
  | nil => rfl
  | cons ts rest ih =>
    cases rest with
    | nil => simp [separated_single]
    | cons us more =>
      rw [separated_cons, List.filter_append, List.filter_cons_of_neg (by simp [Kind.isLeaf]), ih]
      simp

theorem filter_fitted (own n : Nat) (ts : List Kind) :
    (fitted own n ts).filter Kind.isLeaf = ts.filter Kind.isLeaf := by
  unfold fitted enclosed
  split <;> simp [Kind.isLeaf]

theorem map_separated (f : Float → Float) (s : Symbol) (pieces : List (List Kind)) :
    (separated s pieces).map (.mapNumber f) = separated s (pieces.map (·.map (.mapNumber f))) := by
  induction pieces with
  | nil => rfl
  | cons ts rest ih =>
    cases rest with
    | nil => simp [separated_single]
    | cons us more =>
      rw [separated_cons, List.map_append, List.map_cons, ih]
      simp only [List.map_cons, separated_cons]
      rfl

theorem map_fitted (f : Float → Float) (own n : Nat) (ts : List Kind) :
    (fitted own n ts).map (.mapNumber f) = fitted own n (ts.map (.mapNumber f)) := by
  unfold fitted enclosed
  split <;> simp [Kind.mapNumber]

namespace Expr

mutual

theorem filter_words : (e : Expr) → (n : Nat) → (e.words n).filter Kind.isLeaf = e.leaves
  | .number _, _ | .text _, _ | .bool _, _ | .localVar _, _ | .globalVar _, _ => rfl
  | .array items, n => by
    simp [words, leaves, filter_separated, filter_wordsOfAll items, Kind.isLeaf]
  | .call name args, n => by
    simp [words, leaves, List.filter_cons, filter_separated, filter_wordsOfAll args, Kind.isLeaf]
  | .member object key, n => by
    simp [words, leaves, filter_fitted, filter_words object, filter_words key, Kind.isLeaf]
  | .unary op e, n => by
    rw [words]
    split <;> simp [leaves, filter_fitted, filter_words e, Kind.isLeaf]
  | .binary lhs op rhs, n => by
    rw [words]
    split <;> simp [leaves, filter_fitted, filter_words lhs, filter_words rhs, Kind.isLeaf]
  | .assign target op value, n => by
    simp [words, leaves, filter_fitted, filter_words target, filter_words value, Kind.isLeaf]

theorem filter_wordsOfAll : (es : List Expr) →
    ((wordsOfAll es).map (·.filter Kind.isLeaf)).flatten = leavesOfAll es
  | [] => rfl
  | e :: es => by simp [wordsOfAll, leavesOfAll, filter_words e, filter_wordsOfAll es]

end

mutual

theorem words_mapNumbers (f : Float → Float) : (e : Expr) → (n : Nat) →
    (e.mapNumbers f).words n = (e.words n).map (.mapNumber f)
  | .number _, _ | .text _, _ | .bool _, _ | .localVar _, _ | .globalVar _, _ => rfl
  | .array items, n => by
    simp [words, mapNumbers, map_separated, wordsOfAll_mapNumbers f items, Kind.mapNumber]
  | .call name args, n => by
    simp [words, mapNumbers, map_separated, wordsOfAll_mapNumbers f args, Kind.mapNumber]
  | .member object key, n => by
    simp [words, mapNumbers, map_fitted, words_mapNumbers f object, words_mapNumbers f key,
      Kind.mapNumber]
  | .unary op e, n => by
    rw [words, mapNumbers, words]
    split <;> simp [map_fitted, words_mapNumbers f e, Kind.mapNumber]
  | .binary lhs op rhs, n => by
    rw [words, mapNumbers, words]
    split <;> simp [map_fitted, words_mapNumbers f lhs, words_mapNumbers f rhs, Kind.mapNumber]
  | .assign target op value, n => by
    simp [words, mapNumbers, map_fitted, words_mapNumbers f target, words_mapNumbers f value,
      Kind.mapNumber]

theorem wordsOfAll_mapNumbers (f : Float → Float) : (es : List Expr) →
    wordsOfAll (mapNumbersOfAll f es) = (wordsOfAll es).map (·.map (.mapNumber f))
  | [] => rfl
  | e :: es => by
    simp [wordsOfAll, mapNumbersOfAll, words_mapNumbers f e, wordsOfAll_mapNumbers f es]

end

end Expr

namespace Grammar

theorem Phrase.fitted {own n : Nat} {ts : List Kind} {e : Expr} (phrase : Phrase own ts e)
    (bound : n ≤ 10) : Phrase n (fitted own n ts) e := by
  unfold FlowScript.fitted
  split
  · exact (Phrase.group (phrase.looser (Nat.zero_le _))).looser bound
  · exact phrase.looser (by omega)

def worded (es : List Expr) : List (List Kind × Expr) := es.map fun e => (e.words 0, e)

theorem words_of_worded (es : List Expr) : (worded es).map (·.1) = Expr.wordsOfAll es := by
  simp [worded, Expr.wordsOfAll_eq]

theorem exprs_of_worded (es : List Expr) : (worded es).map (·.2) = es := by
  simp [worded, Function.comp_def]

mutual

theorem phrase_words : (e : Expr) → (n : Nat) → n ≤ 10 → Phrase n (e.words n) e
  | .number x, n, bound => (Phrase.number x).looser bound
  | .text s, n, bound => (Phrase.text s).looser bound
  | .bool b, n, bound => (Phrase.bool b).looser bound
  | .localVar name, n, bound => (Phrase.localVar name).looser bound
  | .globalVar name, n, bound => (Phrase.globalVar name).looser bound
  | .array items, n, bound => by
    have phrase := Phrase.array (phrases_words items)
    rw [words_of_worded, exprs_of_worded] at phrase
    exact phrase.looser bound
  | .call name args, n, bound => by
    have phrase := Phrase.call name (phrases_words args)
    rw [words_of_worded, exprs_of_worded] at phrase
    exact phrase.looser bound
  | .member object key, n, bound => by
    rw [Expr.words]
    exact ((phrase_words object 9 (by decide)).member (phrase_words key 0 (by decide))).fitted bound
  | .unary op e, n, bound => by
    rw [Expr.words]
    split
    · rename_i before
      exact (Phrase.leading before (phrase_words e 8 (by decide))).fitted bound
    · rename_i after
      exact (Phrase.trailing (by simpa using after) (phrase_words e 9 (by decide))).fitted bound
  | .binary lhs op rhs, n, bound => by
    rw [Expr.words]
    split
    · rename_i power
      subst power
      exact (Phrase.power (phrase_words lhs 8 (by decide))
        (phrase_words rhs 7 (by decide))).fitted bound
    · rename_i leftward
      have below : op.rank < 7 := by cases op <;> simp_all [BinaryOp.rank]
      exact (Phrase.binary leftward (phrase_words lhs op.rank (by omega))
        (phrase_words rhs (op.rank + 1) (by omega))).fitted bound
  | .assign target op value, n, bound => by
    rw [Expr.words]
    exact (Phrase.assign op (phrase_words target 1 (by decide))
      (phrase_words value 0 (by decide))).fitted bound

theorem phrases_words : (es : List Expr) → ∀ p ∈ worded es, Phrase 0 p.1 p.2
  | [] => List.forall_mem_nil _
  | e :: es => List.forall_mem_cons.mpr ⟨phrase_words e 0 (by decide), phrases_words es⟩

end

theorem words_fitted (e : Expr) : ∃ own ts, ∀ n ≤ 10, e.words n = fitted own n ts := by
  have always (ts : List Kind) : ∀ n ≤ 10, ts = fitted 10 n ts := by
    intro n bound
    rw [fitted, if_neg (by omega)]
  cases e with
  | member object key => exact ⟨_, _, fun n bound => by rw [Expr.words]⟩
  | unary op e =>
    cases side : op.standsBefore with
    | true => exact ⟨_, _, fun n bound => by rw [Expr.words, side, if_pos rfl]⟩
    | false => exact ⟨_, _, fun n bound => by rw [Expr.words, side, if_neg (by decide)]⟩
  | binary lhs op rhs =>
    by_cases power : op = .power
    · exact ⟨_, _, fun n bound => by rw [Expr.words, if_pos power]⟩
    · exact ⟨_, _, fun n bound => by rw [Expr.words, if_neg power]⟩
  | assign target op value => exact ⟨_, _, fun n bound => by rw [Expr.words]⟩
  | number | text | bool | localVar | globalVar | array | call => exact ⟨10, _, always _⟩

theorem words_shorter (e : Expr) {m n : Nat} (le : m ≤ n) (bound : n ≤ 10) :
    (e.words m).length ≤ (e.words n).length ∧ (e.words n).length ≤ (e.words m).length + 2 := by
  obtain ⟨own, ts, same⟩ := words_fitted e
  rw [same n bound, same m (by omega)]
  unfold fitted enclosed
  split <;> split <;> simp <;> omega

theorem separated_shorter (s : Symbol) {items : List (List Kind × Expr)}
    (each : ∀ p ∈ items, (p.2.words 0).length ≤ p.1.length) :
    (separated s (Expr.wordsOfAll (items.map (·.2)))).length ≤
      (separated s (items.map (·.1))).length := by
  induction items with
  | nil => exact Nat.le_refl _
  | cons p rest ih =>
    obtain ⟨here, later⟩ := List.forall_mem_cons.mp each
    cases rest with
    | nil => simpa [Expr.wordsOfAll, separated_single] using here
    | cons q more =>
      have shorter := ih later
      simp only [List.map_cons, Expr.wordsOfAll, separated_cons, List.length_append,
        List.length_cons] at shorter ⊢
      omega

/-- Parentheses stand only where they must: no phrase of the rank asked for has fewer words. -/
theorem words_shortest {n : Nat} {ts : List Kind} {e : Expr} (phrase : Phrase n ts e) :
    (e.words n).length ≤ ts.length := by
  induction phrase with
  | number | text | bool | globalVar | localVar => exact Nat.le_refl _
  | @group ts e inner ih =>
    have closed := (words_shorter e (Nat.zero_le 10) (Nat.le_refl 10)).2
    simp only [List.length_append, List.length_cons, List.length_nil]
    omega
  | call name each ih =>
    have shorter := separated_shorter .comma ih
    simp only [Expr.words, List.length_append, List.length_cons, List.length_nil]
    omega
  | array each ih =>
    have shorter := separated_shorter .comma ih
    simp only [Expr.words, List.length_append, List.length_cons, List.length_nil]
    omega
  | @tighter n ts e phrase ih =>
    have looser := (words_shorter e (Nat.le_succ n) (rank_le_ten phrase)).1
    exact Nat.le_trans looser ih
  | leading side operand ih =>
    simp only [Expr.words, side, fitted, ↓reduceIte, Nat.lt_irrefl, List.length_cons]
    omega
  | trailing side operand ih =>
    simp [Expr.words, side, fitted, ih]
  | member outer inner ih ih' =>
    simp [Expr.words, fitted]
    omega
  | power left right ih ih' =>
    simp [Expr.words, fitted]
    omega
  | binary leftward left right ih ih' =>
    simp [Expr.words, fitted, leftward]
    omega
  | assign op left right ih ih' =>
    simp [Expr.words, fitted]
    omega

end Grammar

namespace Program

def words (p : Program) : List Kind := separated .semicolon (p.map (·.words 0))

theorem sentence_words (p : Program) : Sentence (words p) p := by
  refine ⟨p.map fun e => (e.words 0, [e]), ?_, ?_, ?_⟩
  · intro q listed
    obtain ⟨e, -, rfl⟩ := List.mem_map.mp listed
    exact .expr (phrase_words e 0 (by decide))
  · simp [words, Function.comp_def]
  · simp [Function.comp_def, ← List.flatMap_def]

theorem words_single (e : Expr) : words [e] = e.words 0 := separated_single _ _

theorem length_words_cons (e : Expr) (p : Program) :
    (words (e :: p)).length ≤ (e.words 0).length + 1 + (words p).length := by
  cases p with
  | nil =>
    rw [words_single]
    omega
  | cons f rest =>
    simp only [words, List.map_cons, separated_cons, List.length_append, List.length_cons]
    omega

theorem words_shortest {ts : List Kind} {p : Program} (sentence : Sentence ts p) :
    (words p).length ≤ ts.length := by
  obtain ⟨statements, each, rfl, rfl⟩ := sentence
  induction statements with
  | nil => exact Nat.le_refl _
  | cons q rest ih =>
    obtain ⟨statement, later⟩ := List.forall_mem_cons.mp each
    obtain ⟨us, es⟩ := q
    have shorter := ih later
    cases rest with
    | nil =>
      cases statement with
      | empty => exact Nat.le_refl _
      | expr phrase => simpa [words_single, separated_single] using Grammar.words_shortest phrase
    | cons r more =>
      simp only [List.map_cons, separated_cons, List.length_append, List.length_cons,
        List.flatten_cons] at shorter ⊢
      cases statement with
      | empty =>
        rw [List.nil_append]
        omega
      | @expr _ e phrase =>
        have here : (e.words 0).length ≤ us.length := Grammar.words_shortest phrase
        have both := length_words_cons e (r.2 ++ (more.map (·.2)).flatten)
        rw [List.singleton_append]
        omega

theorem words_mapNumbers (f : Float → Float) (p : Program) :
    words (p.map (·.mapNumbers f)) = (words p).map (.mapNumber f) := by
  rw [words, words, map_separated]
  simp [Function.comp_def, Expr.words_mapNumbers]

theorem leaf_of_word {p : Program} {k : Kind} (leaf : k.isLeaf = true) (inside : k ∈ words p) :
    ∃ e ∈ p, k ∈ e.leaves := by
  have kept := List.mem_filter.mpr ⟨inside, leaf⟩
  rw [words, filter_separated, List.map_map, ← List.flatMap_def] at kept
  simpa [Expr.filter_words] using kept

end Program
end FlowScript
