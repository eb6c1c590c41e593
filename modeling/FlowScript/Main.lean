import FlowScript.CommandLine
import Std.Time

/-!
The program: runs a script file, or holds a dialogue when no file is given.
-/
namespace FlowScript.Terminal

def localClock : IO Moment := do
  let now ← Std.Time.PlainDateTime.now
  let day : Day := ⟨now.year.toInt, now.month.val.toNat, now.day.val.toNat⟩
  let hour := now.hour.val.toNat
  let minute := now.minute.val.toNat
  return ⟨day, (hour * 60 + minute) * 60 + now.second.val.toNat, now.nanosecond.val.toNat⟩

def askedLevel : IO (Option LogLevel) := do
  return LogLevel.ofName ((← IO.getEnv "JITTERSCRIPT_LOG").getD "warn")

def showLog (asked : Option LogLevel) (events : List Event) : IO Unit :=
  (events.filter (Event.isShown asked)).forM fun e => IO.eprintln e.line

def threePlaces (thousandths : Nat) : String :=
  let rest := toString (thousandths % 1000)
  toString (thousandths / 1000) ++ "." ++ String.ofList (List.replicate (3 - rest.length) '0') ++ rest

def display (nanos : Nat) : Console.Output → IO Unit
  | .out line => IO.println line
  | .err line => IO.eprintln line
  | .elapsed => IO.println ("time: " ++ threePlaces (nanos / 1000) ++ " ms")
  | .prompt text => do
    IO.print text
    (← IO.getStdout).flush

def readScript (name : String) : IO (Except CommandLine.FileFault (List Char)) := do
  try
    let bytes ← IO.FS.readBinFile name
    match String.fromUTF8? bytes with
    | some text => return .ok text.toList
    | none => return .error .notText
  catch
    | .noFileOrDirectory _ _ _ => return .error .notFound
    | .permissionDenied _ _ _ => return .error .denied
    | .inappropriateType _ 20 _ => return .error .notDirectory
    | .inappropriateType _ _ _ => return .error .isDirectory
    | .invalidArgument _ 36 _ => return .error .nameTooLong
    | e => throw e

def historyPlace : IO (String × Option String) := do
  match ← IO.getEnv "JITTERSCRIPT_REPL_HISTORY" with
  | some path => return (path, none)
  | none =>
    match (← IO.getEnv "HOME").or (← IO.getEnv "USERPROFILE") with
    | some home => return (home ++ "/.jitterscript/repl_history", some (home ++ "/.jitterscript"))
    | none => return (".jitterscript_repl_history", none)

def loadHistory (path : String) : IO (List String) := do
  try
    return Console.readHistory (← IO.FS.readFile path).toList
  catch _ => return []

def saveHistory (place : String × Option String) (history : List String) : IO Unit := do
  try
    if let some directory := place.2 then IO.FS.createDirAll directory
    IO.FS.writeFile place.1 (Console.writeHistory history)
  catch e => IO.eprintln s!"failed to save repl history: {e}"

def talk (asked : Option LogLevel) (first : Console.Session) : IO Console.Session := do
  let input ← IO.getStdin
  let mut s := first
  repeat
    display 0 (.prompt s.prompt)
    let line ← input.getLine
    if line.isEmpty then break
    let clock ← localClock
    let reported := s.machine.log.size
    let started ← IO.monoNanosNow
    let (action, output, next) := { s with machine := { s.machine with clock } }.feed line.toList
    showLog asked (next.machine.log.toList.drop reported)
    let nanos := (← IO.monoNanosNow) - started
    output.forM (display nanos)
    s := next
    if action == .leave then break
  return s

def dialogue (a : CommandLine.Arguments) : IO UInt32 := do
  let asked ← askedLevel
  let place ← historyPlace
  let history ← loadHistory place.1
  let s := CommandLine.openSession .standard a (← localClock) history
  showLog asked s.machine.log.toList
  Console.banner.forM fun line => IO.println line
  let s ← talk asked s
  saveHistory place s.history
  return 0

def script (a : CommandLine.Arguments) (name : String) : IO UInt32 := do
  let t := CommandLine.runFile .standard a (← localClock) name (← readScript name)
  showLog (← askedLevel) t.log
  t.output.forM (display 0)
  return UInt32.ofNat t.code.toNat

def run (args : List String) : IO UInt32 :=
  match CommandLine.readArguments args with
  | .version => do
    IO.println CommandLine.versionLine
    return 0
  | .help => do
    CommandLine.helpLines.forM fun line => IO.println line
    return 0
  | .misuse => do
    IO.eprintln "error: invalid arguments; see --help"
    return UInt32.ofNat CommandLine.ExitCode.misuse.toNat
  | .run a =>
    match a.script with
    | some name => script a name
    | none => dialogue a

end FlowScript.Terminal

def main (args : List String) : IO UInt32 := FlowScript.Terminal.run args
