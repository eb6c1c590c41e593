import FlowScript.Function

/-!
Choice, repetition and recovery. These functions run their arguments when and as often as they
need them.
-/
namespace FlowScript.Library

def choice (args : List (Eval Value)) : Eval Value := do
  if ← (deferredArg args 0).truth then deferredArg args 1 else deferredArg args 2

def firstCase : List (Eval Value) → Eval Value
  | condition :: result :: rest => do
    if ← condition.truth then result else firstCase rest
  | _ => pure .null

def cases (args : List (Eval Value)) : Eval Value :=
  if args.length % 2 = 0 then firstCase args else .fail (.argumentMismatch "Case" .unpaired)

/-- Runs the body while the condition holds, at most `left` more times. `limit` is the number of
    rounds allowed when the loop began. -/
def rounds (limit : Nat) (condition body : Eval Value) : Nat → Eval Value
  | 0 => do
    if ← condition.truth then .fail (.iterationLimitExceeded limit)
    else
      Eval.report (.loopFinished limit)
      pure .null
  | left + 1 => do
    if ← condition.truth then
      let _ ← body
      rounds limit condition body left
    else
      Eval.report (.loopFinished (limit - (left + 1)))
      pure .null

def loop (args : List (Eval Value)) : Eval Value := do
  let limit := (← Eval.machine).maxIterations
  rounds limit (deferredArg args 0) (deferredArg args 1) limit

def recover (args : List (Eval Value)) : Eval Value :=
  (deferredArg args 0).orElse fun e => do
    Eval.report (.fellBack e)
    Eval.setScope ((← Eval.scope).setLastError e.message)
    deferredArg args 1

def control : List Function :=
  let condition := Param.required "condition" .bool
  [⟨"If",
      [.fixed [condition, .required "trueResult" .any, (Param.required "falseResult" .any).opt]],
      .deferred choice⟩,
   ⟨"Case", [.repeating [condition, .required "result" .any]], .deferred cases⟩,
   ⟨"While", [.fixed [condition, .required "expression" .any]], .deferred loop⟩,
   ⟨"Eval", [.fixed [.required "expToEvaluate" .any, .required "defaultResult" .any]],
      .deferred recover⟩]

end FlowScript.Library
