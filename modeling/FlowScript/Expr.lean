/-!
Expressions and operators of the script language. A program is a list of expressions.
-/
namespace FlowScript

inductive UnaryOp where
  | not | negative | preIncrement | preDecrement | postIncrement | postDecrement
  deriving DecidableEq, Repr

namespace UnaryOp

def isUpdate : UnaryOp → Bool
  | not | negative => false
  | _ => true

def standsBefore : UnaryOp → Bool
  | postIncrement | postDecrement => false
  | _ => true

def all : List UnaryOp :=
  [not, negative, preIncrement, preDecrement, postIncrement, postDecrement]

end UnaryOp

/-- The single and the doubled logical operators differ in spelling only. -/
inductive BinaryOp where
  | add | subtract | multiply | divide | power
  | less | greater | lessEqual | greaterEqual | equal | notEqual
  | logicalAnd | and | logicalOr | or
  deriving DecidableEq, Repr

inductive OpClass where
  | arithmetic | comparison | logical
  deriving DecidableEq, Repr

namespace BinaryOp

def all : List BinaryOp :=
  [add, subtract, multiply, divide, power, less, greater, lessEqual, greaterEqual, equal, notEqual,
   logicalAnd, and, logicalOr, or]

def symbol : BinaryOp → String
  | add => "+"
  | subtract => "-"
  | multiply => "*"
  | divide => "/"
  | power => "^"
  | less => "<"
  | greater => ">"
  | lessEqual => "<="
  | greaterEqual => ">="
  | equal => "=="
  | notEqual => "!="
  | logicalAnd => "&&"
  | and => "&"
  | logicalOr => "||"
  | or => "|"

def errorName : BinaryOp → String
  | add => "ADD"
  | subtract => "SUBTRACT"
  | multiply => "MULTIPLY"
  | divide => "DIVIDE"
  | power => "POWER"
  | less => "LESS THAN"
  | greater => "GREATER THAN"
  | lessEqual => "LESS THAN OR EQUAL"
  | greaterEqual => "GREATER THAN OR EQUAL"
  | equal => "EQUAL"
  | notEqual => "NOT EQUAL"
  | logicalAnd | and => "AND"
  | logicalOr | or => "OR"

def opClass : BinaryOp → OpClass
  | add | subtract | multiply | divide | power => .arithmetic
  | less | greater | lessEqual | greaterEqual | equal | notEqual => .comparison
  | logicalAnd | and | logicalOr | or => .logical

def isOrdering : BinaryOp → Bool
  | less | greater | lessEqual | greaterEqual => true
  | _ => false

end BinaryOp

inductive AssignOp where
  | assign | addAssign | subtractAssign
  deriving DecidableEq, Repr

def AssignOp.binaryOp? : AssignOp → Option BinaryOp
  | assign => none
  | addAssign => some .add
  | subtractAssign => some .subtract

/-- The name of a global variable keeps its dollar sign. -/
inductive Expr where
  | number (value : Float)
  | text (value : String)
  | bool (value : Bool)
  | localVar (name : String)
  | globalVar (name : String)
  | array (items : List Expr)
  | unary (op : UnaryOp) (operand : Expr)
  | binary (lhs : Expr) (op : BinaryOp) (rhs : Expr)
  | assign (target : Expr) (op : AssignOp) (value : Expr)
  | member (object key : Expr)
  | call (name : String) (args : List Expr)
  deriving Repr, Inhabited

def Expr.kindName : Expr → String
  | number _ => "NumericLiteral"
  | text _ => "StringLiteral"
  | bool _ => "BooleanLiteral"
  | localVar _ => "Identifier"
  | globalVar _ => "GlobalIdentifier"
  | array _ => "ArrayLiteral"
  | unary _ _ => "UnaryExpr"
  | binary _ _ _ => "BinaryExpr"
  | assign _ _ _ => "AssignmentExpr"
  | member _ _ => "MemberExpr"
  | call _ _ => "CallExpr"

abbrev Program := List Expr

end FlowScript
