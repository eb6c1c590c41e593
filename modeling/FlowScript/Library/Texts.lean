import FlowScript.Function
import FlowScript.Text.Occurrence

/-!
Texts: case, trimming, parts and occurrences. All counts are in characters.
-/
namespace FlowScript.Library

def onText (f : List Char → List Char) (args : List Value) : Eval Value := do
  let text ← textArg args 0
  pure (.text (String.ofList (f text.toList)))

def left (args : List Value) : Eval Value := onText (·.take (countArg args 1)) args

def right (args : List Value) : Eval Value :=
  onText (fun cs => cs.drop (cs.length - countArg args 1)) args

def middle (args : List Value) : Eval Value :=
  onText (fun cs => (cs.drop (countArg args 1)).take (countArg args 2)) args

def replaceAll (args : List Value) : Eval Value := do
  let old ← textArg args 1
  let new ← textArg args 2
  onText (Text.replace old.toList new.toList) args

def split (args : List Value) : Eval Value := do
  let text ← textArg args 0
  let separator ← textArg args 1
  let parts := Text.splitOn separator.toList text.toList
  Eval.newArray (parts.map fun part => .text (String.ofList part))

def countTo? (nth : Float) (places : List Nat) : Option Nat :=
  let wanted := Number.whole nth
  if 0.0 < nth then if wanted = 0 then none else places[wanted - 1]?
  else if wanted ≤ places.length then places[places.length - wanted]?
  else none

def position (nth : Float) (needle cs : List Char) : Float :=
  match needle with
  | [] => -1.0
  | c :: rest =>
    if nth == 0.0 || nth.isNaN then -1.0
    else
      match countTo? nth (Text.positions c rest cs) with
      | some place => Float.ofNat place
      | none => -1.0

def index (args : List Value) : Eval Value := do
  let text ← textArg args 0
  let needle ← textArg args 1
  pure (.number (position (numberArg args 2) needle.toList text.toList))

def texts : List Function :=
  let str := Param.required "str" .string
  let n := Param.required "n" .integer
  [⟨"ToUpper", [.fixed [str]], .immediate (onText Text.toUpper)⟩,
   ⟨"ToLower", [.fixed [str]], .immediate (onText Text.toLower)⟩,
   ⟨"Trim", [.fixed [str]], .immediate (onText Text.trim)⟩,
   ⟨"Left", [.fixed [str, n]], .immediate left⟩,
   ⟨"Right", [.fixed [str, n]], .immediate right⟩,
   ⟨"Mid", [.fixed [str, .required "m" .integer, n]], .immediate middle⟩,
   ⟨"Replace", [.fixed [str, .required "old" .string, .required "new" .string]],
      .immediate replaceAll⟩,
   ⟨"Split", [.fixed [str, .required "delimiter" .string]], .immediate split⟩,
   ⟨"Index", [.fixed [str, .required "subStr" .string, n.withDefault "1"]], .immediate index⟩]

end FlowScript.Library
