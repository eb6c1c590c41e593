import FlowScript.Function

/-!
The clock, the texts of dates and steps between dates.
-/
namespace FlowScript.Library

def now (millis : Bool) (_ : List Value) : Eval Value := do
  pure (.date (Date.make (← Eval.machine).clock millis))

def dateArg (function : String) (args : List Value) (i : Nat) : Eval Date :=
  match args[i]? with
  | some (.date d) => pure d
  | some (.text t) =>
    match Date.read? t.toList with
    | some d => pure d
    | none => Eval.fail (.argumentMismatch function (.unreadableDate t))
  | some v => Eval.fail (.argumentMismatch function (.notDate v.valueType))
  | none => Eval.fail (.argumentMismatch function .missingDate)

def formatDate (args : List Value) : Eval Value := do
  let d ← dateArg "FormatDate" args 0
  let pattern ← textArg args 1
  match d.format? pattern.toList with
  | some cs => pure (.text (String.ofList cs))
  | none => Eval.fail (.argumentMismatch "FormatDate" (.invalidFormat pattern))

inductive Step where
  | months (each : Int)
  | seconds (each : Int)
  | millis
  deriving DecidableEq, Repr

def step? (part : String) : Option Step :=
  match part with
  | "year" | "yy" | "yyyy" => some (.months 12)
  | "month" | "mm" | "m" => some (.months 1)
  | "week" | "wk" | "ww" => some (.seconds 604800)
  | "day" | "dd" | "d" => some (.seconds 86400)
  | "hour" | "hh" => some (.seconds 3600)
  | "minute" | "mi" | "n" => some (.seconds 60)
  | "second" | "ss" | "s" => some (.seconds 1)
  | "millisecond" | "ms" => some .millis
  | _ => none

def advance? (d : Date) (step : Step) (count : Int) : Option Date :=
  match step with
  | .months each => d.addMonths? (each * count)
  | .seconds each => d.add? (.ofSeconds (each * count))
  | .millis => d.add? (.ofMillis count)

def maxStep : Int := 100000000

def stepArg (args : List Value) (i : Nat) : Int :=
  max (-maxStep) (min maxStep (numberArg args i).toInt64.toInt)

def addToDate (args : List Value) : Eval Value := do
  let name ← textArg args 0
  let part := String.ofList (Text.asciiLower name.toList)
  let d ← dateArg "DateAdd" args 2
  match step? part with
  | none => Eval.fail (.argumentMismatch "DateAdd" (.unknownDatePart part))
  | some step =>
    match advance? d step (stepArg args 1) with
    | some moved => pure (.date moved)
    | none => Eval.fail (.argumentMismatch "DateAdd" .dateOutOfRange)

/-- Waiting changes nothing that a script can see. -/
def sleep (_ : List Value) : Eval Value := pure .null

def dates : List Function :=
  let pattern := Param.required "format" .string
  [⟨"Now", [.fixed []], .immediate (now false)⟩,
   ⟨"Now_", [.fixed []], .immediate (now true)⟩,
   ⟨"FormatDate",
      [.fixed [.required "date" .date, pattern], .fixed [.required "date" .string, pattern]],
      .immediate formatDate⟩,
   ⟨"DateAdd",
      [.fixed [.required "datePart" .string, .required "number" .integer, .required "date" .any]],
      .immediate addToDate⟩,
   ⟨"Sleep", [.fixed [.required "seconds" .number]], .suspending sleep⟩]

end FlowScript.Library
