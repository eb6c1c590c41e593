import FlowScript.RunError
import FlowScript.Text.Quoted

/-!
What a run reports about itself while it goes on.
-/
namespace FlowScript

inductive LogLevel where
  | error | warn | info | debug
  deriving DecidableEq, Repr

def LogLevel.label : LogLevel → String
  | error => "ERROR"
  | warn => " WARN"
  | info => " INFO"
  | debug => "DEBUG"

namespace LogLevel

def ofName (name : String) : Option LogLevel :=
  match name with
  | "off" => none
  | "error" => some error
  | "info" => some info
  | "debug" | "trace" => some debug
  | _ => some warn

def rank : LogLevel → Nat
  | error => 0
  | warn => 1
  | info => 2
  | debug => 3

end LogLevel

inductive Event where
  | statement (index : Nat) (kind : String)
  | halted (source : String) (index : Nat) (error : RunError)
  | calling (function : String) (args : Nat)
  | ignoredWrite (key : String) (size : Nat)
  | loopFinished (rounds : Nat)
  | fellBack (error : RunError)
  | message (text : String)
  | ignoredDefault (name : String)
  deriving DecidableEq, Repr

namespace Event

def level : Event → LogLevel
  | halted _ _ _ => .error
  | ignoredWrite _ _ | ignoredDefault _ => .warn
  | message _ => .info
  | statement _ _ | calling _ _ | loopFinished _ | fellBack _ => .debug

def text : Event → String
  | statement index kind => s!"evaluating statement statement={index} kind={Text.shown kind}"
  | halted source index error =>
    s!"script halted source={source} statement={index} error={error.message}"
  | calling function args => s!"calling builtin function={Text.shown function} args={args}"
  | ignoredWrite key size => s!"array write outside bounds ignored key={key} len={size}"
  | loopFinished rounds => s!"while loop finished iterations={rounds}"
  | fellBack error => s!"Eval fell back to its default error={error.message}"
  | message text => Text.tame text
  | ignoredDefault name =>
    s!"array defaults for system variables are not supported name={Text.shown name}"

def isShown (asked : Option LogLevel) (e : Event) : Bool :=
  match asked with
  | some most => e.level.rank ≤ most.rank
  | none => false

def line (e : Event) : String := e.level.label ++ " " ++ e.text

/-- The lines that a report takes up in a log. Line breaks inside it count as such. -/
def lines (e : Event) : List String :=
  (Text.lines (e.line.toList ++ ['\n'])).map String.ofList

end Event
end FlowScript
