import FlowScript.Text.Blank

/-!
Whether an input typed so far wants another line: an open text, block comment or bracket, or an
operator at the end.
-/
namespace FlowScript.Console

inductive Mode where
  | code
  | lineComment
  | blockComment
  | text (quote : Char)
  | escape (quote : Char)
  deriving DecidableEq, Repr

/-- Opening minus closing brackets of each kind. The counts have no bound. Below 2^31 brackets they
    are those of counters with 32 bits. -/
structure Depths where
  paren : Int
  brace : Int
  bracket : Int
  deriving DecidableEq, Repr

def Depths.zero : Depths := ⟨0, 0, 0⟩

def Depths.count (d : Depths) (c : Char) : Depths :=
  match c with
  | '(' => { d with paren := d.paren + 1 }
  | ')' => { d with paren := d.paren - 1 }
  | '\x7b' => { d with brace := d.brace + 1 }
  | '\x7d' => { d with brace := d.brace - 1 }
  | '[' => { d with bracket := d.bracket + 1 }
  | ']' => { d with bracket := d.bracket - 1 }
  | _ => d

def scan (mode : Mode) (d : Depths) (cs : List Char) : Mode × Depths :=
  match mode, cs with
  | mode, [] => (mode, d)
  | .code, '/' :: '/' :: rest => scan .lineComment d rest
  | .code, '/' :: '*' :: rest => scan .blockComment d rest
  | .code, c :: rest =>
    if c = '"' ∨ c = '\x27' then scan (.text c) d rest else scan .code (d.count c) rest
  | .lineComment, c :: rest => if c = '\n' then scan .code d rest else scan .lineComment d rest
  | .blockComment, '*' :: '/' :: rest => scan .code d rest
  | .blockComment, _ :: rest => scan .blockComment d rest
  | .escape quote, _ :: rest => scan (.text quote) d rest
  | .text quote, c :: rest =>
    if c = '\\' then scan (.escape quote) d rest
    else if c = quote then scan .code d rest
    else scan (.text quote) d rest
termination_by cs.length

def Mode.isOpen : Mode → Bool
  | .code | .lineComment => false
  | .blockComment | .text _ | .escape _ => true

def Depths.isOpen (d : Depths) : Bool := 0 < d.paren || 0 < d.brace || 0 < d.bracket

def openEndings : List Char := ['+', '-', '*', '/', '^', '=', ',', '&', '|', '<', '>']

/-- Whether the text, read backwards, ends in an operator that wants an operand. -/
def endsOpen : List Char → Bool
  | '+' :: '+' :: _ => false
  | '-' :: '-' :: _ => false
  | c :: _ => openEndings.contains c
  | [] => false

def needsMoreInput (source : List Char) : Bool :=
  let (mode, depths) := scan .code .zero source
  mode.isOpen || depths.isOpen || endsOpen (Text.trimEnd source).reverse

end FlowScript.Console
