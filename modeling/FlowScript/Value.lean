import FlowScript.Calendar.Date
import FlowScript.Expr
import FlowScript.Number.Layout
import FlowScript.Text.Case
import FlowScript.Text.Hex

/-!
Values of scripts. Arrays and dictionaries are handles into a store, so copying such a value shares
the container.
-/
namespace FlowScript

inductive ValueType where
  | null | bool | number | string | binary | date | array | dictionary
  deriving DecidableEq, Repr

namespace ValueType

def all : List ValueType := [null, bool, number, string, binary, date, array, dictionary]

def name : ValueType → String
  | null => "null"
  | bool => "bool"
  | number => "number"
  | string => "string"
  | binary => "binary"
  | date => "date"
  | array => "array"
  | dictionary => "dictionary"

end ValueType

abbrev Handle := Nat

inductive Value where
  | null
  | bool (b : Bool)
  | number (x : Float)
  | text (s : String)
  | binary (bytes : List UInt8)
  | date (d : Date)
  | array (h : Handle)
  | dictionary (h : Handle)
  deriving Repr, Inhabited

namespace Number

/-- The numeric reading of a text. White space around it does not count, a blank text is zero, and
    a text that is no plain numeral is undefined. -/
def ofText (cs : List Char) : Float :=
  let trimmed := Text.trim cs
  if trimmed.isEmpty then 0.0 else (readDecimal? trimmed).getD notANumber

end Number

/-- `true`, `t` and `false`, `f` in any case, else the truth of the number that the text reads as. -/
def Text.isTruthy (cs : List Char) : Bool :=
  let trimmed := Text.trim cs
  if Text.sameIgnoringCase trimmed "true".toList || Text.sameIgnoringCase trimmed "t".toList then
    true
  else if trimmed.isEmpty || Text.sameIgnoringCase trimmed "false".toList
      || Text.sameIgnoringCase trimmed "f".toList then
    false
  else Number.isTruthy (Number.ofText trimmed)

namespace Value

def valueType : Value → ValueType
  | null => .null
  | bool _ => .bool
  | number _ => .number
  | text _ => .string
  | binary _ => .binary
  | date _ => .date
  | array _ => .array
  | dictionary _ => .dictionary

def isNull : Value → Bool
  | null => true
  | _ => false

def toNumber : Value → Float
  | null => 0.0
  | bool b => Number.ofBool b
  | number x => x
  | text s => Number.ofText s.toList
  | date d => d.epochSeconds
  | binary _ | array _ | dictionary _ => Number.notANumber

def sameContainer : Value → Value → Bool
  | array a, array b => a == b
  | dictionary a, dictionary b => a == b
  | _, _ => false

end Value
end FlowScript
