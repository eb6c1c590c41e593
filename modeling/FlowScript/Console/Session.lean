import FlowScript.Console.Color
import FlowScript.Console.Completeness
import FlowScript.Library.Standard
import FlowScript.Script

/-!
A dialogue with a run: lines are gathered until they make up a complete input, inputs are run one
after the other, and lines with a colon ask about the session itself.
-/
namespace FlowScript

/-- Expressions that only look at things. Their value is shown. -/
def Expr.isEchoable : Expr → Bool
  | .number _ | .text _ | .bool _ | .localVar _ | .globalVar _ => true
  | .unary op operand => !op.isUpdate && operand.isEchoable
  | .binary lhs _ rhs => lhs.isEchoable && rhs.isEchoable
  | .member object key => object.isEchoable && key.isEchoable
  | .array items => allEchoable items
  | .call _ _ | .assign _ _ _ => false
where
  allEchoable : List Expr → Bool
    | [] => true
    | e :: rest => e.isEchoable && allEchoable rest

def Program.isEchoable : Program → Bool
  | [e] => e.isEchoable
  | _ => false

namespace Console

def sourceLabel : String := "<repl>"

def historyLimit : Nat := 500

structure Session where
  library : Library
  machine : Machine
  history : List String
  showTiming : Bool
  buffer : List Char

inductive Action where
  | notHandled | handled | leave
  deriving DecidableEq, Repr

inductive Output where
  | out (line : String)
  | err (line : String)
  | elapsed
  | prompt (text : String)
  deriving DecidableEq, Repr

namespace Session

def start (library : Library) (machine : Machine) : Session := ⟨library, machine, [], true, []⟩

def prompt (s : Session) : String := if s.buffer.isEmpty then "jb> " else "..> "

def globalNames (s : Session) : List String := s.machine.scope.globals.keys

def symbols (s : Session) : List String :=
  s.library.names ++ s.machine.scope.locals.map (·.1) ++ s.globalNames

end Session

def trimHistory (history : List String) : List String := history.drop (history.length - historyLimit)

namespace Session

def extend (buffer line : List Char) : List Char :=
  if buffer.isEmpty then line else buffer ++ '\n' :: line

/-- Takes one line, and hands out the input that it completes. Blank lines before an input are
    dropped. -/
def pushLine (s : Session) (raw : List Char) : Option (List Char) × Session :=
  let line := Text.trimEnd raw
  if s.buffer.isEmpty && (Text.trim line).isEmpty then (none, s)
  else
    let buffer := extend s.buffer line
    if needsMoreInput buffer then (none, { s with buffer })
    else
      let history :=
        if (Text.trim buffer).isEmpty then s.history
        else trimHistory (s.history ++ [String.ofList buffer])
      (some buffer, { s with buffer := [], history })

def eval (s : Session) (input : List Char) : Except String (Option String) × Session :=
  match Script.parse input with
  | .error e => (.error (e.render sourceLabel input), s)
  | .ok program =>
    let (outcome, machine) := program.run s.library s.machine
    let s := { s with machine }
    match outcome.error with
    | some e => (.error ((ScriptError.run e).render sourceLabel input), s)
    | none =>
      if program.isEchoable && !outcome.value.isNull then
        (.ok (some (machine.store.render outcome.value)), s)
      else (.ok none, s)

def runInput (s : Session) (input : List Char) : List Output × Session :=
  match s.eval input with
  | (.error rendered, s) => ([.err rendered], s)
  | (.ok echo, s) =>
    let echoed := echo.toList.map Output.out
    (echoed ++ (if s.showTiming then [.elapsed] else []), s)

def describe (store : Store) : Value → String
  | .text t => Text.shown t
  | .null => "null"
  | v => s!"{store.render v} ({v.valueType.name})"

end Session

def variableLines (m : Machine) : List String :=
  let line := fun (p : String × Value) => p.1 ++ " = " ++ Session.describe m.store p.2
  let globals := m.scope.globals.toList.filterMap fun p =>
    match p.2 with
    | .holding v => some (p.1, v)
    | .pending => none
  m.scope.locals.map line ++ globals.map line

namespace Session

def helpLines : List String :=
  [":help                   Show this message",
   ":doc <Function>         Show builtin signatures",
   ":vars                   List variables and their values",
   ":complete <prefix>      Show completion suggestions",
   ":history [n]            Show recent history (default 20)",
   ":timing on|off          Toggle evaluation timing output",
   ":quit                   Exit REPL"]

def documentationLines (s : Session) : Option String → List Output
  | none => [.err "usage: :doc <Function>"]
  | some name =>
    match s.library.find? name with
    | some f => [.out f.documentation]
    | none => [.err s!"no builtin named '{name}'"]

def completionLines (s : Session) : Option String → List Output
  | none => [.err "usage: :complete <prefix>"]
  | some start =>
    match completions start s.symbols with
    | [] => [.out "(no matches)"]
    | found => found.map .out

def readCount? (cs : List Char) : Option Nat :=
  let digits :=
    match cs with
    | '+' :: rest => rest
    | _ => cs
  if !digits.isEmpty && digits.all Char.isDigit then
    let limit := Nat.pow 2 64
    let n := Decimal.valueUpTo limit digits
    if n < limit then some n else none
  else none

def numbered (i : Nat) (entry : String) : String :=
  let number := toString (i + 1)
  let padding := String.ofList (List.replicate (4 - number.length) ' ')
  padding ++ number ++ " " ++ String.ofList (colorize entry.toList)

def historyLines (s : Session) (count : Option String) : List Output :=
  let wanted := (count.bind fun w => readCount? w.toList).getD 20
  let skipped := s.history.length - wanted
  (s.history.drop skipped).zipIdx skipped |>.map fun p => .out (numbered p.2 p.1)

def setTiming (s : Session) (state : Option String) : List Output × Session :=
  match state with
  | some "on" => ([.out "timing: on"], { s with showTiming := true })
  | some "off" => ([.out "timing: off"], { s with showTiming := false })
  | _ => ([.err "usage: :timing on|off"], s)

/-- Answers a line that is about the session and not part of a script. Only the start of an input
    is looked at. -/
def command (s : Session) (line : List Char) : Action × List Output × Session :=
  if line.isEmpty || !s.buffer.isEmpty then (.notHandled, [], s)
  else if Text.sameIgnoringCase line "exit".toList || Text.sameIgnoringCase line "quit".toList then
    (.leave, [], s)
  else if line.head? ≠ some ':' then (.notHandled, [], s)
  else
    let words := (Text.words line).map String.ofList
    let argument := words[1]?
    match words.headD "" with
    | ":quit" | ":exit" => (.leave, [], s)
    | ":help" => (.handled, helpLines.map .out, s)
    | ":doc" => (.handled, s.documentationLines argument, s)
    | ":vars" => (.handled, (variableLines s.machine).map .out, s)
    | ":complete" => (.handled, s.completionLines argument, s)
    | ":history" => (.handled, s.historyLines argument, s)
    | ":timing" =>
      let (output, s) := s.setTiming argument
      (.handled, output, s)
    | other => (.handled, [.err s!"unknown command '{other}'; use :help"], s)

def dropLineEnd (raw : List Char) : List Char :=
  (raw.reverse.dropWhile fun c => c == '\n' || c == '\r').reverse

def feed (s : Session) (raw : List Char) : Action × List Output × Session :=
  let line := dropLineEnd raw
  match s.command (Text.trim line) with
  | (.notHandled, _, s) =>
    match s.pushLine line with
    | (none, s) => (.handled, [], s)
    | (some input, s) =>
      let (output, s) := s.runInput input
      (.handled, output, s)
  | answered => answered

def dialogue (s : Session) : List (List Char) → List Output × Session
  | [] => ([.prompt s.prompt], s)
  | line :: rest =>
    match s.feed line with
    | (.leave, output, left) => (.prompt s.prompt :: output, left)
    | (_, output, next) =>
      let (more, final) := next.dialogue rest
      (.prompt s.prompt :: output ++ more, final)

end Session

def banner : List String :=
  ["Jitterbit Script REPL",
   "Commands: :help, :doc <Function>, :vars, :complete <prefix>, :history, :timing on|off, :quit",
   "Multi-line mode is automatic while brackets, strings or comments are open."]

def readHistory (contents : List Char) : List String :=
  ((Text.lines contents).map Text.trim).filter (!·.isEmpty) |>.map String.ofList

/-- The inputs, each on lines of its own. An empty text gets no line break. -/
def writeHistory (history : List String) : String :=
  let text := "\n".intercalate (trimHistory history)
  if text.isEmpty then text else text ++ "\n"

end Console
end FlowScript
