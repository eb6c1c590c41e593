import FlowScript.Text.Position

/-!
The words of a script: punctuation and operators, names, literals. A token keeps the characters it
was read from and the place where they begin.
-/
namespace FlowScript

inductive Symbol where
  | leftParen | rightParen | leftBrace | rightBrace | leftBracket | rightBracket
  | comma | semicolon
  | plus | plusPlus | plusEqual | minus | minusMinus | minusEqual
  | star | slash | caret
  | bang | bangEqual | equal | equalEqual
  | greater | greaterEqual | less | lessEqual
  | ampAmp | amp | pipePipe | pipe
  deriving DecidableEq, Repr

namespace Symbol

def spelling : Symbol → List Char
  | leftParen => ['('] | rightParen => [')']
  | leftBrace => ['\x7b'] | rightBrace => ['\x7d']
  | leftBracket => ['['] | rightBracket => [']']
  | comma => [','] | semicolon => [';']
  | plus => ['+'] | plusPlus => ['+', '+'] | plusEqual => ['+', '=']
  | minus => ['-'] | minusMinus => ['-', '-'] | minusEqual => ['-', '=']
  | star => ['*'] | slash => ['/'] | caret => ['^']
  | bang => ['!'] | bangEqual => ['!', '='] | equal => ['='] | equalEqual => ['=', '=']
  | greater => ['>'] | greaterEqual => ['>', '='] | less => ['<'] | lessEqual => ['<', '=']
  | ampAmp => ['&', '&'] | amp => ['&'] | pipePipe => ['|', '|'] | pipe => ['|']

def ofChar? (c : Char) : Option Symbol :=
  match c with
  | '(' => some leftParen
  | ')' => some rightParen
  | '\x7b' => some leftBrace
  | '\x7d' => some rightBrace
  | '[' => some leftBracket
  | ']' => some rightBracket
  | ',' => some comma
  | ';' => some semicolon
  | '+' => some plus
  | '-' => some minus
  | '*' => some star
  | '/' => some slash
  | '^' => some caret
  | '!' => some bang
  | '=' => some equal
  | '>' => some greater
  | '<' => some less
  | '&' => some amp
  | '|' => some pipe
  | _ => none

def ofPair? (c d : Char) : Option Symbol :=
  match c, d with
  | '+', '+' => some plusPlus
  | '+', '=' => some plusEqual
  | '-', '-' => some minusMinus
  | '-', '=' => some minusEqual
  | '!', '=' => some bangEqual
  | '=', '=' => some equalEqual
  | '>', '=' => some greaterEqual
  | '<', '=' => some lessEqual
  | '&', '&' => some ampAmp
  | '|', '|' => some pipePipe
  | _, _ => none

theorem spelling_of_ofChar? {c : Char} {s : Symbol} (h : ofChar? c = some s) :
    s.spelling = [c] := by
  unfold ofChar? at h
  split at h <;> cases h <;> rfl

theorem spelling_of_ofPair? {c d : Char} {s : Symbol} (h : ofPair? c d = some s) :
    s.spelling = [c, d] := by
  unfold ofPair? at h
  split at h <;> cases h <;> rfl

end Symbol

namespace Token

/-- A global name keeps its leading dollar sign. -/
inductive Kind where
  | symbol (s : Symbol)
  | name (text : String)
  | global (text : String)
  | number (value : Float)
  | text (value : String)
  | bool (value : Bool)
  deriving Repr

end Token

structure Token where
  kind : Token.Kind
  lexeme : List Char
  position : Position
  deriving Repr

end FlowScript
