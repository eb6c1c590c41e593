import FlowScript.Text.Blank
import FlowScript.Text.HiddenTable

/-!
Two quoted forms of a text: the one shown to people, which spells hidden characters by number, and
the one of data files, which escapes controls only. Without quotes, the form that is safe to write
to a terminal.
-/
namespace FlowScript.Text

def isHidden (c : Char) : Bool := inRanges hiddenRanges c

def hexDigits (n : Nat) : List Char := Nat.toDigits 16 n

def numbered (c : Char) : List Char := ['\\', 'u', '\x7b'] ++ hexDigits c.toNat ++ ['\x7d']

def shownChar (c : Char) : List Char :=
  if c = '"' then ['\\', '"']
  else if c = '\\' then ['\\', '\\']
  else if c = '\n' then ['\\', 'n']
  else if c = '\r' then ['\\', 'r']
  else if c = '\t' then ['\\', 't']
  else if c = '\x00' then ['\\', '0']
  else if isHidden c then numbered c
  else [c]

def shown (s : String) : String :=
  String.ofList ('"' :: s.toList.flatMap shownChar ++ ['"'])

def dataChar (c : Char) : List Char :=
  if c = '"' then ['\\', '"']
  else if c = '\\' then ['\\', '\\']
  else if c = '\x08' then ['\\', 'b']
  else if c = '\x0c' then ['\\', 'f']
  else if c = '\n' then ['\\', 'n']
  else if c = '\r' then ['\\', 'r']
  else if c = '\t' then ['\\', 't']
  else if c.toNat < 0x10 then ['\\', 'u', '0', '0', '0'] ++ hexDigits c.toNat
  else if c.toNat < 0x20 then ['\\', 'u', '0', '0'] ++ hexDigits c.toNat
  else [c]

def dataQuoted (s : String) : String :=
  String.ofList ('"' :: s.toList.flatMap dataChar ++ ['"'])

/-- Bell, backspace, form feed, escape and delete, with which a text could take over a terminal, are
    spelled in two digits; the controls from 0x80 on, which some terminals obey too, by number. -/
def tameChar (c : Char) : List Char :=
  match c with
  | '\x07' => "\\x07".toList
  | '\x08' => "\\x08".toList
  | '\x0c' => "\\x0c".toList
  | '\x1b' => "\\x1b".toList
  | '\x7f' => "\\x7f".toList
  | c => if 0x80 ≤ c.toNat ∧ c.toNat ≤ 0x9F then numbered c else [c]

def tame (s : String) : String := String.ofList (s.toList.flatMap tameChar)

end FlowScript.Text
