import FlowScript.Token.Lexer

/-!
Colours for a line as it is typed. The text is cut into segments, some of which have a colour; a
coloured segment is written between a colour mark and a reset mark.
-/
namespace FlowScript.Console

inductive Color where
  | keyword | text | number | comment | global
  deriving DecidableEq, Repr

def Color.mark : Color → List Char
  | keyword => "\x1b[94m".toList
  | text => "\x1b[92m".toList
  | number => "\x1b[93m".toList
  | comment => "\x1b[90m".toList
  | global => "\x1b[96m".toList

def resetMark : List Char := "\x1b[0m".toList

structure Segment where
  color : Option Color
  chars : List Char
  deriving DecidableEq, Repr

def Segment.render (s : Segment) : List Char :=
  match s.color with
  | some color => color.mark ++ s.chars ++ resetMark
  | none => s.chars

def keywords : List String := ["true", "false", "If", "Case", "While", "Eval"]

def isWordChar (c : Char) : Bool := c == '_' || c == '.' || c == '$' || c.isAlphanum

def quoted (quote : Char) : List Char → List Char × List Char
  | [] => ([], [])
  | '\\' :: c :: rest =>
    let (body, tail) := quoted quote rest
    ('\\' :: c :: body, tail)
  | c :: rest =>
    if c = quote then ([c], rest)
    else
      let (body, tail) := quoted quote rest
      (c :: body, tail)

def isNumberRest (c : Char) : Bool := c.isDigit || c == '.'

def isWordRest (c : Char) : Bool := isWordChar c && c != '$'

def wordColor (word : List Char) : Option Color :=
  if word.head? = some '$' then some .global
  else if keywords.contains (String.ofList word) then some .keyword
  else none

def segment (c : Char) (cs : List Char) : Segment × List Char :=
  if c = '/' ∧ cs.head? = some '/' then
    (⟨some .comment, c :: cs.takeWhile Lexer.notLineFeed⟩, cs.dropWhile Lexer.notLineFeed)
  else if Lexer.isQuote c then
    let (body, rest) := quoted c cs
    (⟨some .text, c :: body⟩, rest)
  else if c.isDigit then
    (⟨some .number, c :: cs.takeWhile isNumberRest⟩, cs.dropWhile isNumberRest)
  else if c = '$' || Lexer.isNameStart c then
    let word := c :: cs.takeWhile isWordRest
    (⟨wordColor word, word⟩, cs.dropWhile isWordRest)
  else (⟨none, [c]⟩, cs)

theorem quoted_append (quote : Char) (cs : List Char) :
    (quoted quote cs).1 ++ (quoted quote cs).2 = cs := by
  fun_induction quoted quote cs <;> simp_all

theorem segment_append (c : Char) (cs : List Char) :
    (segment c cs).1.chars ++ (segment c cs).2 = c :: cs := by
  unfold segment
  split
  · simp
  split
  · simp [quoted_append]
  split
  · simp
  split <;> simp

theorem segment_chars_ne_nil (c : Char) (cs : List Char) : (segment c cs).1.chars ≠ [] := by
  unfold segment
  repeat' split
  all_goals simp

theorem segment_shorter (c : Char) (cs : List Char) :
    (segment c cs).2.length < (c :: cs).length := by
  have total := congrArg List.length (segment_append c cs)
  have taken := List.length_pos_iff.2 (segment_chars_ne_nil c cs)
  rw [List.length_append] at total
  omega

def segments (cs : List Char) : List Segment :=
  match cs with
  | [] => []
  | c :: rest => (segment c rest).1 :: segments (segment c rest).2
termination_by cs.length
decreasing_by exact segment_shorter c rest

def colorize (cs : List Char) : List Char := (segments cs).flatMap Segment.render

/-- The byte at which the word begins that the line ends with. -/
def wordStart (line : List Char) : Nat :=
  let before := (line.reverse.dropWhile isWordChar).reverse
  (before.map Char.utf8Size).foldl (· + ·) 0

def dropRepeats : List String → List String
  | a :: b :: rest => if a = b then dropRepeats (b :: rest) else a :: dropRepeats (b :: rest)
  | rest => rest

def completions (start : String) (symbols : List String) : List String :=
  let candidates := (keywords ++ symbols).mergeSort fun a b => decide (a ≤ b)
  (dropRepeats candidates).filter fun s => start.toList.isPrefixOf s.toList

end FlowScript.Console
