import FlowScript.Store

/-!
What arguments a function takes, and how a call's arguments are fitted to it. Arrays, dictionaries,
dates and binaries have to be given as such; all other types are converted.
-/
namespace FlowScript

inductive ParamType where
  | any | bool | number | integer | string | array | dictionary | date | binary
  deriving DecidableEq, Repr

namespace ParamType

def all : List ParamType :=
  [any, bool, number, integer, string, array, dictionary, date, binary]

def name : ParamType → String
  | any => "type"
  | bool => "bool"
  | number => "number"
  | integer => "integer"
  | string => "string"
  | array => "array"
  | dictionary => "dictionary"
  | date => "date"
  | binary => "binary"

def strict? : ParamType → Option ValueType
  | array => some .array
  | dictionary => some .dictionary
  | date => some .date
  | binary => some .binary
  | _ => none

def accepts (t : ParamType) (v : Value) : Bool :=
  match t.strict? with
  | some required => v.valueType == required
  | none => true

def coerce (s : Store) (t : ParamType) (v : Value) : Value :=
  match t with
  | bool => .bool (s.toBool v)
  | number => .number v.toNumber
  | integer =>
    let x := v.toNumber
    .number (if x.isNaN then 0.0 else Number.truncate x)
  | string => .text (s.render v)
  | _ => v

end ParamType

structure Param where
  name : String
  type : ParamType
  isOptional : Bool := false
  default : Option String := none
  deriving DecidableEq, Repr

namespace Param

def required (name : String) (type : ParamType) : Param := { name, type }

def opt (p : Param) : Param := { p with isOptional := true }

def withDefault (p : Param) (text : String) : Param :=
  { p with isOptional := true, default := some text }

def text (p : Param) : String :=
  let tail :=
    match p.default with
    | some value => " = " ++ Text.shown value
    | none => if p.isOptional then "?" else ""
  p.type.name ++ " " ++ p.name ++ tail

end Param

structure Signature where
  params : List Param
  variadic : Bool := false
  deriving DecidableEq, Repr

namespace Signature

def fixed (params : List Param) : Signature := { params }

def repeating (params : List Param) : Signature := { params, variadic := true }

def arity (g : Signature) : Arity :=
  ⟨(g.params.filter (!·.isOptional)).length, if g.variadic then none else some g.params.length⟩

def acceptsCount (g : Signature) (count : Nat) : Bool := g.arity.accepts count

def paramAt? (g : Signature) (i : Nat) : Option Param :=
  match g.params[i]? with
  | some p => some p
  | none => if g.variadic then g.params.getLast? else none

def acceptsFrom (g : Signature) (i : Nat) : List Value → Bool
  | [] => true
  | v :: rest =>
    match g.paramAt? i with
    | some p => p.type.accepts v && g.acceptsFrom (i + 1) rest
    | none => false

def accepts (g : Signature) (args : List Value) : Bool :=
  g.acceptsCount args.length && g.acceptsFrom 0 args

def bindFrom (s : Store) (g : Signature) (function : String) (i : Nat) :
    List Value → Except RunError (List Value)
  | [] => .ok []
  | v :: rest =>
    match g.paramAt? i with
    | none => .ok []
    | some p =>
      if p.type.accepts v then
        match bindFrom s g function (i + 1) rest with
        | .ok bound => .ok (p.type.coerce s v :: bound)
        | .error e => .error e
      else .error (.argumentMismatch function (.wrongType p.name p.type.name v.valueType))

def defaults (s : Store) : List Param → List Value
  | [] => []
  | p :: rest =>
    match p.default with
    | some value => p.type.coerce s (.text value) :: defaults s rest
    | none => []

/-- Fits the arguments to the parameters and fills in defaults. -/
def bind (s : Store) (g : Signature) (function : String) (args : List Value) :
    Except RunError (List Value) :=
  if g.acceptsCount args.length then
    match bindFrom s g function 0 args with
    | .ok bound => .ok (bound ++ defaults s (g.params.drop args.length))
    | .error e => .error e
  else .error (.argumentMismatch function (.arity [g.arity] args.length))

def text (g : Signature) : String :=
  "(" ++ ", ".intercalate (g.params.map Param.text) ++ (if g.variadic then ", ..." else "") ++ ")"

/-- The place of the first signature that takes the arguments as they are, else of the first that
    takes their number. -/
def choose? (signatures : List Signature) (args : List Value) : Option Nat :=
  match signatures.findIdx? (·.accepts args) with
  | some i => some i
  | none => signatures.findIdx? (·.acceptsCount args.length)

def arityError (function : String) (signatures : List Signature) (got : Nat) : RunError :=
  .argumentMismatch function (.arity (signatures.map (·.arity)) got)

def choose (function : String) (signatures : List Signature) (args : List Value) :
    Except RunError Signature :=
  match (choose? signatures args).bind (signatures[·]?) with
  | some g => .ok g
  | none => .error (arityError function signatures args.length)

/-- A function without signatures takes any number of arguments. -/
def checkArity (function : String) (signatures : List Signature) (count : Nat) :
    Except RunError Unit :=
  if signatures.isEmpty || signatures.any (·.acceptsCount count) then .ok ()
  else .error (arityError function signatures count)

end Signature
end FlowScript
