import FlowScript.Evaluate
import FlowScript.Expr.Parser
import FlowScript.Token.Lexer

/-!
Scripts as text: reading them, running them, and showing where they are wrong.
-/
namespace FlowScript

inductive ScriptError where
  | lex (failure : Lexer.Failure)
  | parse (failure : Parser.Failure)
  | run (error : RunError)
  deriving Repr

namespace Script

def parse (source : List Char) : Except ScriptError Program :=
  match Lexer.read source with
  | .error failure => .error (.lex failure)
  | .ok out =>
    match Parser.read out.tokens out.stop with
    | .error failure => .error (.parse failure)
    | .ok program => .ok program

def underline (line : String) (column : Nat) : String :=
  line ++ "\n" ++ String.ofList (List.replicate (column - 1) ' ') ++ "^"

/-- A message with its place and, if the text has such a line, the line itself. -/
def locate (title label : String) (source : List Char) (message : String) (p : Position) : String :=
  let head := s!"{title}: {message}\n--> {label}:{p.line}:{p.column}"
  match (Text.lines source)[p.line - 1]? with
  | some line => head ++ "\n" ++ underline (String.ofList line) p.column
  | none => head

end Script

namespace ScriptError

def placed (title : String) (p : Position) (message : String) : String :=
  s!"{title} at line {p.line}, column {p.column}: {message}"

def message : ScriptError → String
  | lex f => placed "lex error" f.position f.fault.message
  | parse f => placed "parse error" f.position f.expected.message
  | run e => e.message

def render (label : String) (source : List Char) : ScriptError → String
  | lex f => Script.locate "lex error" label source f.fault.message f.position
  | parse f => Script.locate "parse error" label source f.expected.message f.position
  | run e => s!"runtime error: {e.message}\n--> {label}"

end ScriptError
end FlowScript
