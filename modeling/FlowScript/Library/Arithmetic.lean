import FlowScript.Function

/-!
Rounding, roots, remainders and powers.
-/
namespace FlowScript.Library

def placesArg (args : List Value) (i : Nat) : Nat := min (numberArg args i).toUInt64.toNat 15

/-- Halves go away from zero. -/
def round (args : List Value) : Eval Value :=
  let factor := Float.ofNat (Nat.pow 10 (placesArg args 1))
  pure (.number ((numberArg args 0 * factor).round / factor))

def onNumber (f : Float → Float) (args : List Value) : Eval Value :=
  pure (.number (f (numberArg args 0)))

def modulo (args : List Value) : Eval Value :=
  let divisor := numberArg args 1
  if divisor == 0.0 then .fail .divisionByZero
  else pure (.number (Number.remainder (numberArg args 0) divisor))

def raiseTo (args : List Value) : Eval Value :=
  pure (.number ((numberArg args 0).pow (numberArg args 1)))

def arithmetic : List Function :=
  let arg := Param.required "arg" .number
  [⟨"Round",
      [.fixed [.required "doubleToRound" .number,
        (Param.required "numPlaces" .integer).withDefault "0"]],
      .immediate round⟩,
   ⟨"Floor", [.fixed [arg]], .immediate (onNumber Float.floor)⟩,
   ⟨"Ceiling", [.fixed [arg]], .immediate (onNumber Float.ceil)⟩,
   ⟨"Sqrt", [.fixed [arg]], .immediate (onNumber Float.sqrt)⟩,
   ⟨"Mod", [.fixed [.required "x" .integer, .required "y" .integer]], .immediate modulo⟩,
   ⟨"Pow", [.fixed [.required "base" .number, .required "exp" .number]], .immediate raiseTo⟩]

end FlowScript.Library
