import FlowScript.Function

/-!
Null, lengths, variables by name, errors and messages.
-/
namespace FlowScript.Library

def null (_ : List Value) : Eval Value := pure .null

def isNull (args : List Value) : Eval Value := pure (.bool (valueArg args 0).isNull)

def lengthOf (s : Store) : Value → Nat
  | .null => 0
  | .array h => (s.items h).length
  | .dictionary h => (s.entries h).size
  | .binary bytes => bytes.length
  | v => (s.render v).length

def length (args : List Value) : Eval Value := do
  let s ← Eval.store
  pure (.number (Float.ofNat (lengthOf s (valueArg args 0))))

def follow (v : Value) : List Value → Eval Value
  | [] => pure v
  | key :: path => do
    let inner ← Eval.readMember v key
    follow inner path

/-- Reads a variable and goes on along keys. A local without a value is null. -/
def getByName (args : List Value) : Eval Value := do
  let name ← textArg args 0
  let v ←
    if Scope.isGlobalName name then Eval.getGlobal name
    else pure (((← Eval.scope).local? name).getD .null)
  follow v (args.drop 1)

def variableNamed (name : String) : Eval Value :=
  if Scope.isGlobalName name then Eval.getGlobal name else Eval.getLocal name

def setByName (args : List Value) : Eval Value := do
  let name ← textArg args 0
  let v := valueArg args 1
  match (args.drop 2).getLast? with
  | none =>
    Eval.setScope ((← Eval.scope).set name v)
    pure v
  | some last => do
    let outermost ← variableNamed name
    let container ← follow outermost (args.drop 2).dropLast
    Eval.assignMember container last .assign v

def raise (args : List Value) : Eval Value := do
  let message ← textArg args 0
  Eval.fail (.raised message)

def lastError (_ : List Value) : Eval Value := do
  pure (.text ((← Eval.scope).lastError.getD ""))

def writeMessage (args : List Value) : Eval Value := do
  let message ← textArg args 0
  Eval.report (.message message)
  pure (.text message)

def general : List Function :=
  let name := Param.required "name" .string
  let index := (Param.required "index" .any).opt
  let message := Param.required "message" .string
  [⟨"Null", [.fixed []], .immediate null⟩,
   ⟨"IsNull", [.fixed [.required "arg" .any]], .immediate isNull⟩,
   ⟨"Length", [.fixed [.required "arg" .any]], .immediate length⟩,
   ⟨"Get", [.repeating [name, index]], .immediate getByName⟩,
   ⟨"Set", [.repeating [name, .required "value" .any, index]], .immediate setByName⟩,
   ⟨"RaiseError", [.fixed [message]], .immediate raise⟩,
   ⟨"GetLastError", [.fixed []], .immediate lastError⟩,
   ⟨"WriteToOperationLog", [.fixed [message]], .immediate writeMessage⟩,
   ⟨"RunOperation",
      [.fixed [.required "operationId" .string,
        (Param.required "synchronous" .bool).withDefault "true"]],
      .declared .immediate⟩]

end FlowScript.Library
