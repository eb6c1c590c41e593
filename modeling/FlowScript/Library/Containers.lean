import FlowScript.Function

/-!
Arrays and dictionaries.
-/
namespace FlowScript.Library

def makeArray (args : List Value) : Eval Value := Eval.newArray args

def makeDictionary (_ : List Value) : Eval Value := Eval.newDictionary .empty

def dictionaryArg (function : String) (args : List Value) : Eval Handle :=
  match args with
  | .dictionary h :: _ => pure h
  | _ => Eval.fail (.argumentMismatch function .notDictionary)

def keyArg (args : List Value) : Eval String := Eval.ofExcept (Member.keyText (valueArg args 1))

def addEntry (args : List Value) : Eval Value := do
  let h ← dictionaryArg "AddToDict" args
  let key ← keyArg args
  let v := valueArg args 2
  let s ← Eval.store
  Eval.ofExcept (Member.rejectCycle s (.dictionary h) v)
  Eval.setStore (s.setEntries h ((s.entries h).insert key v))
  pure (.bool !((s.entries h).contains key))

def hasEntry (args : List Value) : Eval Value := do
  let h ← dictionaryArg "HasKey" args
  let key ← keyArg args
  let s ← Eval.store
  pure (.bool ((s.entries h).contains key))

def entryKeys (args : List Value) : Eval Value := do
  let h ← dictionaryArg "GetKeys" args
  let s ← Eval.store
  Eval.newArray ((s.entries h).keys.map .text)

def removeEntry (args : List Value) : Eval Value := do
  let h ← dictionaryArg "RemoveKey" args
  let key ← keyArg args
  let s ← Eval.store
  Eval.setStore (s.setEntries h ((s.entries h).erase key))
  pure (.bool ((s.entries h).contains key))

def containers : List Function :=
  let dict := Param.required "dict" .dictionary
  let key := Param.required "key" .any
  [⟨"Array", [.fixed [], .repeating [.required "item" .any]], .immediate makeArray⟩,
   ⟨"Dict", [.fixed []], .immediate makeDictionary⟩,
   ⟨"AddToDict", [.fixed [dict, key, .required "arg" .any]], .immediate addEntry⟩,
   ⟨"HasKey", [.fixed [dict, key]], .immediate hasEntry⟩,
   ⟨"GetKeys", [.fixed [dict]], .immediate entryKeys⟩,
   ⟨"RemoveKey", [.fixed [dict, key]], .immediate removeEntry⟩]

end FlowScript.Library
