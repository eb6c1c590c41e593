import FlowScript.Expr
import FlowScript.Token

/-!
From tokens to expressions, by recursive descent over the kinds of the tokens. Every step hands on
the tokens it left, with the proof that there are fewer of them; the recursion ends on their number.

From the loosest to the tightest binding: assignment (to the right), the levels of `precedence` (to
the left), power (to the right), prefix operators, indexing and postfix operators.
-/
namespace FlowScript.Parser

open Token (Kind)

inductive Expected where
  | expression
  | statementEnd
  | indexEnd
  | groupEnd
  | argumentsEnd
  | arrayEnd
  deriving DecidableEq, Repr

def Expected.message : Expected → String
  | expression => "expected expression"
  | statementEnd => "expected ';' after expression"
  | indexEnd => "expected ']' after index expression"
  | groupEnd => "expected ')' after expression"
  | argumentsEnd => "expected ')' after arguments"
  | arrayEnd => "expected '\x7d' after array literal"

/-- What was expected, and the tokens that stood there instead. -/
structure Mismatch where
  expected : Expected
  rest : List Kind
  deriving Repr

/-- An expression and what follows it, which is fewer than `size` tokens. -/
structure Reading (size : Nat) where
  expr : Expr
  rest : List Kind
  shorter : rest.length < size

structure ListReading (size : Nat) where
  exprs : List Expr
  rest : List Kind
  shorter : rest.length < size

def assignOp? : Symbol → Option AssignOp
  | .equal => some .assign
  | .plusEqual => some .addAssign
  | .minusEqual => some .subtractAssign
  | _ => none

def leadingOp? : Symbol → Option UnaryOp
  | .bang => some .not
  | .minus => some .negative
  | .plusPlus => some .preIncrement
  | .minusMinus => some .preDecrement
  | _ => none

abbrev Level := List (Symbol × BinaryOp)

def precedence : List Level :=
  [[(.pipePipe, .logicalOr), (.pipe, .or)],
   [(.ampAmp, .logicalAnd), (.amp, .and)],
   [(.equalEqual, .equal), (.bangEqual, .notEqual)],
   [(.greater, .greater), (.greaterEqual, .greaterEqual), (.less, .less), (.lessEqual, .lessEqual)],
   [(.plus, .add), (.minus, .subtract)],
   [(.star, .multiply), (.slash, .divide)]]

mutual

def expression (ts : List Kind) : Except Mismatch (Reading ts.length) :=
  match binary precedence ts with
  | .error m => .error m
  | .ok target =>
    match h : target.rest with
    | .symbol s :: rest =>
      have fewer : rest.length < ts.length := by
        have := target.shorter
        simp [h] at this
        omega
      match assignOp? s with
      | none => .ok target
      | some op =>
        match expression rest with
        | .error m => .error m
        | .ok value =>
          .ok ⟨.assign target.expr op value.expr, value.rest, Nat.lt_trans value.shorter fewer⟩
    | _ => .ok target
termination_by (ts.length, 5 + precedence.length)

def binary (levels : List Level) (ts : List Kind) : Except Mismatch (Reading ts.length) :=
  match levels with
  | [] => power ts
  | level :: tighter =>
    match binary tighter ts with
    | .error m => .error m
    | .ok first =>
      have fewer := first.shorter
      match chain level tighter first.expr first.rest with
      | .error m => .error m
      | .ok all => .ok ⟨all.expr, all.rest, by have := all.shorter; omega⟩
termination_by (ts.length, 4 + levels.length)

def chain (level : Level) (tighter : List Level) (lhs : Expr) (ts : List Kind) :
    Except Mismatch (Reading (ts.length + 1)) :=
  match ts with
  | .symbol s :: rest =>
    match level.lookup s with
    | none => .ok ⟨lhs, .symbol s :: rest, Nat.lt_succ_self _⟩
    | some op =>
      match binary tighter rest with
      | .error m => .error m
      | .ok rhs =>
        have fewer := rhs.shorter
        match chain level tighter (.binary lhs op rhs.expr) rhs.rest with
        | .error m => .error m
        | .ok all => .ok ⟨all.expr, all.rest, by have := all.shorter; simp; omega⟩
  | ts => .ok ⟨lhs, ts, Nat.lt_succ_self _⟩
termination_by (ts.length, 3)

def power (ts : List Kind) : Except Mismatch (Reading ts.length) :=
  match unary ts with
  | .error m => .error m
  | .ok base =>
    match h : base.rest with
    | .symbol .caret :: rest =>
      have fewer : rest.length < ts.length := by
        have := base.shorter
        simp [h] at this
        omega
      match power rest with
      | .error m => .error m
      | .ok exponent =>
        .ok ⟨.binary base.expr .power exponent.expr, exponent.rest,
          Nat.lt_trans exponent.shorter fewer⟩
    | _ => .ok base
termination_by (ts.length, 3)

def unary (ts : List Kind) : Except Mismatch (Reading ts.length) :=
  match ts with
  | .symbol s :: rest =>
    match leadingOp? s with
    | none => suffixed (.symbol s :: rest)
    | some op =>
      match unary rest with
      | .error m => .error m
      | .ok operand =>
        .ok ⟨.unary op operand.expr, operand.rest, by have := operand.shorter; simp; omega⟩
  | ts => suffixed ts
termination_by (ts.length, 2)

def suffixed (ts : List Kind) : Except Mismatch (Reading ts.length) :=
  match primary ts with
  | .error m => .error m
  | .ok first =>
    have fewer := first.shorter
    match suffixes first.expr first.rest with
    | .error m => .error m
    | .ok all => .ok ⟨all.expr, all.rest, by have := all.shorter; omega⟩
termination_by (ts.length, 1)

def suffixes (object : Expr) (ts : List Kind) : Except Mismatch (Reading (ts.length + 1)) :=
  match ts with
  | .symbol .leftBracket :: rest =>
    match expression rest with
    | .error m => .error m
    | .ok key =>
      match h : key.rest with
      | .symbol .rightBracket :: after =>
        have fewer : after.length < rest.length := by
          have := key.shorter
          simp [h] at this
          omega
        match suffixes (.member object key.expr) after with
        | .error m => .error m
        | .ok all => .ok ⟨all.expr, all.rest, by have := all.shorter; simp; omega⟩
      | _ => .error ⟨.indexEnd, key.rest⟩
  | .symbol .plusPlus :: rest =>
    match suffixes (.unary .postIncrement object) rest with
    | .error m => .error m
    | .ok all => .ok ⟨all.expr, all.rest, by have := all.shorter; simp; omega⟩
  | .symbol .minusMinus :: rest =>
    match suffixes (.unary .postDecrement object) rest with
    | .error m => .error m
    | .ok all => .ok ⟨all.expr, all.rest, by have := all.shorter; simp; omega⟩
  | ts => .ok ⟨object, ts, Nat.lt_succ_self _⟩
termination_by (ts.length, 1)

def primary (ts : List Kind) : Except Mismatch (Reading ts.length) :=
  match ts with
  | .number x :: rest => .ok ⟨.number x, rest, by simp⟩
  | .text s :: rest => .ok ⟨.text s, rest, by simp⟩
  | .bool b :: rest => .ok ⟨.bool b, rest, by simp⟩
  | .global name :: rest => .ok ⟨.globalVar name, rest, by simp⟩
  | .name name :: .symbol .leftParen :: rest =>
    match items .rightParen .argumentsEnd rest with
    | .error m => .error m
    | .ok args => .ok ⟨.call name args.exprs, args.rest, by have := args.shorter; simp; omega⟩
  | .name name :: rest => .ok ⟨.localVar name, rest, by simp⟩
  | .symbol .leftParen :: rest =>
    match expression rest with
    | .error m => .error m
    | .ok inner =>
      match h : inner.rest with
      | .symbol .rightParen :: after =>
        .ok ⟨inner.expr, after, by have := inner.shorter; simp [h] at this; simp; omega⟩
      | _ => .error ⟨.groupEnd, inner.rest⟩
  | .symbol .leftBrace :: rest =>
    match items .rightBrace .arrayEnd rest with
    | .error m => .error m
    | .ok list => .ok ⟨.array list.exprs, list.rest, by have := list.shorter; simp; omega⟩
  | ts => .error ⟨.expression, ts⟩
termination_by (ts.length, 0)

def items (closing : Symbol) (expected : Expected) (ts : List Kind) :
    Except Mismatch (ListReading ts.length) :=
  match ts with
  | .symbol s :: rest =>
    if s = closing then .ok ⟨[], rest, by simp⟩ else itemsFrom closing expected (.symbol s :: rest)
  | ts => itemsFrom closing expected ts
termination_by (ts.length, 7 + precedence.length)

def itemsFrom (closing : Symbol) (expected : Expected) (ts : List Kind) :
    Except Mismatch (ListReading ts.length) :=
  match expression ts with
  | .error m => .error m
  | .ok first =>
    match h : first.rest with
    | .symbol s :: rest =>
      have fewer : rest.length < ts.length := by
        have := first.shorter
        simp [h] at this
        omega
      if s = .comma then
        match itemsFrom closing expected rest with
        | .error m => .error m
        | .ok more =>
          .ok ⟨first.expr :: more.exprs, more.rest, Nat.lt_trans more.shorter fewer⟩
      else if s = closing then .ok ⟨[first.expr], rest, fewer⟩
      else .error ⟨expected, first.rest⟩
    | _ => .error ⟨expected, first.rest⟩
termination_by (ts.length, 6 + precedence.length)

end

/-- Expressions that end with a semicolon; the last one may do without. Semicolons with nothing
    before them are skipped. -/
def program (ts : List Kind) : Except Mismatch Program :=
  match ts with
  | [] => .ok []
  | .symbol .semicolon :: rest => program rest
  | ts =>
    match expression ts with
    | .error m => .error m
    | .ok first =>
      match h : first.rest with
      | [] => .ok [first.expr]
      | .symbol .semicolon :: rest =>
        have fewer : rest.length < ts.length := by
          have := first.shorter
          simp [h] at this
          omega
        match program rest with
        | .error m => .error m
        | .ok more => .ok (first.expr :: more)
      | _ => .error ⟨.statementEnd, first.rest⟩
termination_by ts.length

structure Failure where
  expected : Expected
  position : Position
  deriving DecidableEq, Repr

/-- Where the last `n` tokens begin; with none left, where the text ends. -/
def placeOfLast (n : Nat) (tokens : List Token) (stop : Position) : Position :=
  match tokens.drop (tokens.length - n) with
  | t :: _ => t.position
  | [] => stop

def read (tokens : List Token) (stop : Position) : Except Failure Program :=
  match program (tokens.map (·.kind)) with
  | .ok p => .ok p
  | .error m => .error ⟨m.expected, placeOfLast m.rest.length tokens stop⟩

end FlowScript.Parser
