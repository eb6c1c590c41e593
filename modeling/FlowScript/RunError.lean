import FlowScript.Value

/-!
What can go wrong while a script runs, and how it is worded.
-/
namespace FlowScript

inductive Adjustment where
  | increment | decrement | not | negative
  deriving DecidableEq, Repr

def Adjustment.errorName : Adjustment → String
  | increment => "INCREMENT"
  | decrement => "DECREMENT"
  | not => "NOT"
  | negative => "NEGATIVE"

structure Arity where
  least : Nat
  most : Option Nat
  deriving DecidableEq, Repr

namespace Arity

def accepts (a : Arity) (count : Nat) : Bool :=
  a.least ≤ count &&
    match a.most with
    | some most => count ≤ most
    | none => true

def describe (a : Arity) : String :=
  match a.most with
  | some most => if most = a.least then toString most else s!"{a.least} to {most}"
  | none => s!"at least {a.least}"

end Arity

inductive ArgumentFault where
  | arity (expected : List Arity) (got : Nat)
  | wrongType (param expected : String) (got : ValueType)
  | unpaired
  | notHex (text : String)
  | notDictionary
  | unreadableDate (text : String)
  | notDate (got : ValueType)
  | missingDate
  | invalidFormat (pattern : String)
  | unknownDatePart (part : String)
  | dateOutOfRange
  deriving DecidableEq, Repr

def ArgumentFault.message : ArgumentFault → String
  | arity expected got =>
    "expected " ++ " or ".intercalate (expected.map Arity.describe) ++ s!" argument(s), got {got}"
  | wrongType param expected got => s!"argument '{param}' must be a {expected}, got {got.name}"
  | unpaired => "expects condition/result pairs"
  | notHex text => s!"'{text}' is not a hex string"
  | notDictionary => "first argument must be a dictionary"
  | unreadableDate text => s!"cannot parse '{text}' as a date"
  | notDate got => s!"expected a date, got {got.name}"
  | missingDate => "missing date argument"
  | invalidFormat pattern => s!"invalid format '{pattern}'"
  | unknownDatePart part => s!"unknown date part '{part}'"
  | dateOutOfRange => "resulting date is out of range"

inductive RunError where
  | uninitializedVariable (name : String)
  | invalidAssignmentTarget (kind : String)
  | illegalOperation (op : BinaryOp) (lhs rhs : ValueType)
  | booleanComparison (op : BinaryOp) (lhs rhs : ValueType)
  | illegalUnaryOperation (op : Adjustment) (operand : ValueType)
  | arrayLengthMismatch (op : BinaryOp) (lhs rhs : Nat)
  | divisionByZero
  | indexOutOfRange (index : String) (size : Nat)
  | unsupportedKeyType (container key : ValueType)
  | cyclicReference (container : ValueType)
  | notIndexable (object : ValueType)
  | argumentMismatch (function : String) (fault : ArgumentFault)
  | iterationLimitExceeded (limit : Nat)
  | unimplemented (function : String)
  | unknownFunction (function : String)
  | asyncCalledSynchronously (function : String)
  | raised (message : String)
  deriving DecidableEq, Repr

namespace RunError

def incompatible (op : BinaryOp) (lhs rhs : ValueType) : String :=
  s!"Illegal operation, {op.errorName} with incompatible data types: " ++
    s!"{lhs.name} {op.symbol} {rhs.name}"

def message : RunError → String
  | uninitializedVariable name => s!"Local variable '{name}' hasn't been initialized"
  | invalidAssignmentTarget kind =>
    s!"Illegal assignment target: {kind}. " ++
      "Only variables and array or dictionary members can be assigned"
  | illegalOperation op lhs rhs => incompatible op lhs rhs
  | booleanComparison op lhs rhs =>
    incompatible op lhs rhs ++ ". Convert the boolean operand to an integer first"
  | illegalUnaryOperation op operand =>
    s!"Illegal operation, {op.errorName} with incompatible data type: {operand.name}"
  | arrayLengthMismatch op lhs rhs =>
    s!"Illegal operation, {op.errorName} with arrays of different sizes: {lhs} and {rhs}"
  | divisionByZero => "Division by zero"
  | indexOutOfRange index size => s!"Array index {index} is out of range (size {size})"
  | unsupportedKeyType container key => s!"Unsupported key type for {container.name}: {key.name}"
  | cyclicReference container => s!"Cannot store a {container.name} inside itself"
  | notIndexable object => s!"Cannot access members of a {object.name} value"
  | argumentMismatch function fault => s!"{function}: {fault.message}"
  | iterationLimitExceeded limit =>
    s!"While loop exceeded the maximum number of iterations ({limit}). " ++
      "Set $jitterbit.scripting.while.max_iterations to raise the limit"
  | unimplemented function => s!"Function '{function}' is not implemented"
  | unknownFunction function => s!"Unknown function: {function}"
  | asyncCalledSynchronously function =>
    s!"Function '{function}' is asynchronous and cannot be called synchronously"
  | raised text => text

end RunError
end FlowScript
