import FlowScript.Console.Session

/-!
The command line: its arguments, the run of a script file, and a whole dialogue over given lines.
-/
namespace FlowScript.CommandLine

structure Arguments where
  script : Option String := none
  json : Bool := false
  maxIterations : Option Nat := none
  globals : List (String × String) := []
  deriving DecidableEq, Repr

inductive Request where
  | run (arguments : Arguments)
  | version
  | help
  | misuse
  deriving DecidableEq, Repr

def splitAtEqual (cs : List Char) : Option (List Char × List Char) :=
  match cs.dropWhile (· != '=') with
  | [] => none
  | _ :: value => some (cs.takeWhile (· != '='), value)

def readGlobal? (cs : List Char) : Option (String × String) :=
  match splitAtEqual cs with
  | none => none
  | some (name, value) =>
    let name := Text.trim name
    if name.isEmpty then none else some (String.ofList name, String.ofList value)

inductive Flag where
  | json | maxIterations | set | version | help
  deriving DecidableEq, Repr

def flag? (name : List Char) : Option Flag :=
  match String.ofList name with
  | "json" => some .json
  | "max-iterations" => some .maxIterations
  | "set" => some .set
  | "version" => some .version
  | "help" => some .help
  | _ => none

/-- Takes over the value of an option. None but `--set` may be given twice. -/
def withValue? (a : Arguments) (flag : Flag) (value : List Char) : Option Arguments :=
  match flag with
  | .maxIterations =>
    if a.maxIterations.isSome then none
    else (Console.Session.readCount? value).map fun n => { a with maxIterations := some n }
  | .set => (readGlobal? value).map fun g => { a with globals := a.globals ++ [g] }
  | _ => none

def withScript? (a : Arguments) (name : String) : Option Arguments :=
  if a.script.isSome || name.isEmpty then none else some { a with script := some name }

def positional (a : Arguments) : List String → Request
  | [] => .run a
  | name :: rest =>
    match withScript? a name with
    | some a => positional a rest
    | none => .misuse

def isValue (cs : List Char) : Bool := cs.head? != some '-' || cs.length == 1

def parse (a : Arguments) : List String → Request
  | [] => .run a
  | arg :: rest =>
    match arg.toList with
    | ['-', '-'] => positional a rest
    | '-' :: '-' :: long =>
      match splitAtEqual long with
      | some (name, value) =>
        match (flag? name).bind fun flag => withValue? a flag value with
        | some a => parse a rest
        | none => .misuse
      | none =>
        match flag? long, rest with
        | some .version, _ => .version
        | some .help, _ => .help
        | some .json, rest => if a.json then .misuse else parse { a with json := true } rest
        | some flag, value :: rest =>
          if isValue value.toList then
            match withValue? a flag value.toList with
            | some a => parse a rest
            | none => .misuse
          else .misuse
        | _, _ => .misuse
    | '-' :: 'V' :: _ => .version
    | '-' :: 'h' :: _ => .help
    | '-' :: _ :: _ => .misuse
    | _ =>
      match withScript? a arg with
      | some a => parse a rest
      | none => .misuse

def readArguments (args : List String) : Request := parse {} args

def globalValue (text : String) : Value :=
  let x := Number.ofText text.toList
  if (Text.trim text.toList).isEmpty || x.isNaN then .text text else .number x

def prepare (a : Arguments) (label : String) (clock : Moment) : Machine :=
  let options : Options := { defaultIterations := a.maxIterations.getD 50000, label }
  let m := Machine.initial options clock
  let scope := a.globals.foldl (fun sc g => sc.setGlobal g.1 (globalValue g.2)) m.scope
  { m with scope }

inductive ExitCode where
  | success | failure | misuse
  deriving DecidableEq, Repr

def ExitCode.toNat : ExitCode → Nat
  | success => 0
  | failure => 1
  | misuse => 2

structure Transcript where
  output : List Console.Output
  code : ExitCode
  log : List Event := []
  deriving Repr

def resultLines (s : Store) (v : Value) (json : Bool) : List Console.Output :=
  if json then [.out (s.toData v)] else if v.isNull then [] else [.out (s.render v)]

/-- Runs a script file. The value is shown even when a later statement failed. -/
def runScript (l : Library) (a : Arguments) (clock : Moment) (label : String)
    (source : List Char) : Transcript :=
  match Script.parse source with
  | .error e => { output := [.err (e.render label source)], code := .failure }
  | .ok program =>
    let (outcome, m) := program.run l (prepare a label clock)
    let lines := resultLines m.store outcome.value a.json
    match outcome.error with
    | none => ⟨lines, .success, m.log.toList⟩
    | some e =>
      ⟨lines ++ [.err ((ScriptError.run e).render label source)], .failure, m.log.toList⟩

inductive FileFault where
  | notFound
  | isDirectory
  | notDirectory
  | nameTooLong
  | notText
  | denied
  deriving DecidableEq, Repr

def FileFault.message : FileFault → String
  | notFound => "No such file or directory (os error 2)"
  | isDirectory => "Is a directory (os error 21)"
  | notDirectory => "Not a directory (os error 20)"
  | nameTooLong => "File name too long (os error 36)"
  | notText => "stream did not contain valid UTF-8"
  | denied => "Permission denied (os error 13)"

def runFile (l : Library) (a : Arguments) (clock : Moment) (name : String)
    (contents : Except FileFault (List Char)) : Transcript :=
  match contents with
  | .error fault =>
    { output := [.err s!"failed to read '{name}': {fault.message}"], code := .failure }
  | .ok source => runScript l a clock name source

def openSession (l : Library) (a : Arguments) (clock : Moment) (history : List String) :
    Console.Session :=
  { Console.Session.start l (prepare a Console.sourceLabel clock) with history }

def runDialogue (s : Console.Session) (input : List Char) : List Console.Output × Console.Session :=
  let (output, s) := s.dialogue (Text.lines input)
  (Console.banner.map .out ++ output, s)

def versionLine : String := "jitterscript 0.1.0"

def helpLines : List String :=
  ["Run a Jitterbit Script file, or start a REPL when no file is given",
   "",
   "Usage: jitterscript [OPTIONS] [SCRIPT]"]

end FlowScript.CommandLine
