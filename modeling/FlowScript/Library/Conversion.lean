import FlowScript.Function

/-!
Conversions between types.
-/
namespace FlowScript.Library

def toText (args : List Value) : Eval Value := do
  let text ← textArg args 0
  pure (.text text)

def toInteger (args : List Value) : Eval Value :=
  let x := numberArg args 0
  pure (.number (if x.isNaN then 0.0 else Number.truncate x))

def toDouble (args : List Value) : Eval Value := pure (.number (numberArg args 0))

def toBoolean (args : List Value) : Eval Value := do
  let s ← Eval.store
  pure (.bool (s.toBool (valueArg args 0)))

def binaryToHex (args : List Value) : Eval Value :=
  match valueArg args 0 with
  | .binary bytes => pure (.text (String.ofList (Hex.encode bytes)))
  | _ => pure .null

def hexToBinary (args : List Value) : Eval Value := do
  let text ← textArg args 0
  match Hex.decode text.toList with
  | some bytes => pure (.binary bytes)
  | none => Eval.fail (.argumentMismatch "HexToBinary" (.notHex text))

def conversion : List Function :=
  [⟨"String", [.fixed [.required "arg" .any]], .immediate toText⟩,
   ⟨"Int", [.fixed [.required "arg" .any]], .immediate toInteger⟩,
   ⟨"Double", [.fixed [.required "arg" .number]], .immediate toDouble⟩,
   ⟨"Bool", [.fixed [.required "arg" .bool]], .immediate toBoolean⟩,
   ⟨"BinaryToHex", [.fixed [.required "arg" .binary]], .immediate binaryToHex⟩,
   ⟨"HexToBinary", [.fixed [.required "arg" .string]], .immediate hexToBinary⟩]

end FlowScript.Library
