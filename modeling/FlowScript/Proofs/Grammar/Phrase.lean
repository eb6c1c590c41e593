import FlowScript.Expr.Parser

/-!
The grammar of scripts, as a relation between tokens and what they mean. An expression is a phrase
of some rank, and a tighter phrase may stand wherever a looser one may: assignments have rank 0, the
operators that group to the left ranks 1 to 6, power rank 7, leading operators rank 8, indexing and
trailing operators rank 9, and whatever has clear ends of its own rank 10.
-/
namespace FlowScript

def AssignOp.sign : AssignOp → Symbol
  | assign => .equal
  | addAssign => .plusEqual
  | subtractAssign => .minusEqual

def UnaryOp.sign : UnaryOp → Symbol
  | not => .bang
  | negative => .minus
  | preIncrement | postIncrement => .plusPlus
  | preDecrement | postDecrement => .minusMinus

namespace BinaryOp

def sign : BinaryOp → Symbol
  | logicalOr => .pipePipe
  | or => .pipe
  | logicalAnd => .ampAmp
  | and => .amp
  | equal => .equalEqual
  | notEqual => .bangEqual
  | less => .less
  | greater => .greater
  | lessEqual => .lessEqual
  | greaterEqual => .greaterEqual
  | add => .plus
  | subtract => .minus
  | multiply => .star
  | divide => .slash
  | power => .caret

/-- The larger the rank, the tighter the operator binds. -/
def rank : BinaryOp → Nat
  | logicalOr | or => 1
  | logicalAnd | and => 2
  | equal | notEqual => 3
  | less | greater | lessEqual | greaterEqual => 4
  | add | subtract => 5
  | multiply | divide => 6
  | power => 7

end BinaryOp

namespace Grammar

open Token (Kind)

def separated (s : Symbol) (pieces : List (List Kind)) : List Kind :=
  List.intercalate [.symbol s] pieces

theorem separated_single (s : Symbol) (ts : List Kind) : separated s [ts] = ts := by
  simp [separated, List.intercalate]

theorem separated_cons (s : Symbol) (ts us : List Kind) (pieces : List (List Kind)) :
    separated s (ts :: us :: pieces) = ts ++ .symbol s :: separated s (us :: pieces) := by
  simp [separated, List.intercalate]

/-- `Phrase n ts e`: the tokens spell the expression, and none of its operators outside of brackets
    is looser than rank `n`. -/
inductive Phrase : Nat → List Kind → Expr → Prop where
  | number (x : Float) : Phrase 10 [.number x] (.number x)
  | text (s : String) : Phrase 10 [.text s] (.text s)
  | bool (b : Bool) : Phrase 10 [.bool b] (.bool b)
  | globalVar (name : String) : Phrase 10 [.global name] (.globalVar name)
  | localVar (name : String) : Phrase 10 [.name name] (.localVar name)
  | group {ts : List Kind} {e : Expr} (inner : Phrase 0 ts e) :
      Phrase 10 (.symbol .leftParen :: ts ++ [.symbol .rightParen]) e
  | call (name : String) {args : List (List Kind × Expr)} (each : ∀ p ∈ args, Phrase 0 p.1 p.2) :
      Phrase 10 (.name name :: .symbol .leftParen :: separated .comma (args.map (·.1)) ++
        [.symbol .rightParen]) (.call name (args.map (·.2)))
  | array {items : List (List Kind × Expr)} (each : ∀ p ∈ items, Phrase 0 p.1 p.2) :
      Phrase 10 (.symbol .leftBrace :: separated .comma (items.map (·.1)) ++ [.symbol .rightBrace])
        (.array (items.map (·.2)))
  | member {ts us : List Kind} {object key : Expr} (outer : Phrase 9 ts object)
      (inner : Phrase 0 us key) :
      Phrase 9 (ts ++ .symbol .leftBracket :: us ++ [.symbol .rightBracket]) (.member object key)
  | trailing {op : UnaryOp} (side : op.standsBefore = false) {ts : List Kind} {e : Expr}
      (operand : Phrase 9 ts e) : Phrase 9 (ts ++ [.symbol op.sign]) (.unary op e)
  | leading {op : UnaryOp} (side : op.standsBefore = true) {ts : List Kind} {e : Expr}
      (operand : Phrase 8 ts e) : Phrase 8 (.symbol op.sign :: ts) (.unary op e)
  | power {ts us : List Kind} {base exponent : Expr} (left : Phrase 8 ts base)
      (right : Phrase 7 us exponent) :
      Phrase 7 (ts ++ .symbol .caret :: us) (.binary base .power exponent)
  | binary {op : BinaryOp} (leftward : op ≠ .power) {ts us : List Kind} {lhs rhs : Expr}
      (left : Phrase op.rank ts lhs) (right : Phrase (op.rank + 1) us rhs) :
      Phrase op.rank (ts ++ .symbol op.sign :: us) (.binary lhs op rhs)
  | assign (op : AssignOp) {ts us : List Kind} {target value : Expr} (left : Phrase 1 ts target)
      (right : Phrase 0 us value) :
      Phrase 0 (ts ++ .symbol op.sign :: us) (.assign target op value)
  | tighter {n : Nat} {ts : List Kind} {e : Expr} (phrase : Phrase (n + 1) ts e) : Phrase n ts e

theorem rank_le_ten {n : Nat} {ts : List Kind} {e : Expr} (phrase : Phrase n ts e) : n ≤ 10 := by
  induction phrase with
  | @binary op => cases op <;> decide
  | tighter => omega
  | _ => omega

theorem Phrase.looser {m n : Nat} {ts : List Kind} {e : Expr} (phrase : Phrase m ts e)
    (le : n ≤ m) : Phrase n ts e := by
  induction m with
  | zero =>
    rw [Nat.le_zero.mp le]
    exact phrase
  | succ m ih =>
    rcases Nat.eq_or_lt_of_le le with same | less
    · rw [same]
      exact phrase
    · exact ih phrase.tighter (by omega)

inductive Statement : List Kind → List Expr → Prop where
  | empty : Statement [] []
  | expr {ts : List Kind} {e : Expr} (phrase : Phrase 0 ts e) : Statement ts [e]

/-- A program is made of statements with semicolons between them. Since statements may be empty, a
    semicolon may also follow the last one. -/
def Sentence (ts : List Kind) (p : Program) : Prop :=
  ∃ statements : List (List Kind × List Expr), (∀ q ∈ statements, Statement q.1 q.2) ∧
    ts = separated .semicolon (statements.map (·.1)) ∧ p = (statements.map (·.2)).flatten

theorem Sentence.empty : Sentence [] [] := ⟨[], by simp, rfl, rfl⟩

theorem Sentence.single {ts : List Kind} {e : Expr} (phrase : Phrase 0 ts e) : Sentence ts [e] :=
  ⟨[(ts, [e])], by simpa using .expr phrase, (separated_single _ _).symm, rfl⟩

theorem Sentence.cons {us ts : List Kind} {es : List Expr} {p : Program} (first : Statement us es)
    (later : Sentence ts p) : Sentence (us ++ .symbol .semicolon :: ts) (es ++ p) := by
  obtain ⟨statements, each, rfl, rfl⟩ := later
  cases statements with
  | nil =>
    refine ⟨[(us, es), ([], [])], ?_, rfl, by simp⟩
    simpa using ⟨first, .empty⟩
  | cons q rest =>
    refine ⟨(us, es) :: q :: rest, List.forall_mem_cons.mpr ⟨first, each⟩, ?_, rfl⟩
    exact (separated_cons _ _ _ _).symm

end Grammar
end FlowScript
