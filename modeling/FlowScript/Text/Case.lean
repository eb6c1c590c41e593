import FlowScript.Text.Blank
import FlowScript.Text.CaseTable

/-!
Upper and lower case of whole texts. A character may become several, and a capital sigma that ends
a word takes its final form.
-/
namespace FlowScript.Text

def CaseRun.covers (r : CaseRun) (n : Nat) : Bool :=
  r.first ≤ n && n ≤ r.last && (n - r.first) % r.step == 0

def shifted (runs : List CaseRun) (c : Char) : Char :=
  match runs.find? (·.covers c.toNat) with
  | some r => Char.ofNat (c.toNat + r.shift).toNat
  | none => c

def recased (runs : List CaseRun) (sequences : List (Nat × List Nat)) (c : Char) : List Char :=
  match sequences.lookup c.toNat with
  | some codes => codes.map Char.ofNat
  | none => [shifted runs c]

def isAscii (c : Char) : Bool := c.toNat < 0x80

def upperChar (c : Char) : List Char :=
  if isAscii c then [c.toUpper] else recased upperRuns upperSequences c

def lowerChar (c : Char) : List Char :=
  if isAscii c then [c.toLower] else recased lowerRuns lowerSequences c

def isCased (c : Char) : Bool := inRanges casedRanges c

def isCaseIgnorable (c : Char) : Bool := inRanges caseIgnorableRanges c

def meetsCased (cs : List Char) : Bool :=
  match cs.dropWhile isCaseIgnorable with
  | c :: _ => isCased c
  | [] => false

def toUpper (cs : List Char) : List Char := cs.flatMap upperChar

def capitalSigma : Char := 'Σ'

def toLower (cs : List Char) : List Char :=
  go [] cs
where
  /- `before` holds the characters already passed, nearest first. -/
  go (before : List Char) : List Char → List Char
    | [] => []
    | c :: rest =>
      let low :=
        if c = capitalSigma then
          if meetsCased before && !meetsCased rest then ['ς'] else ['σ']
        else lowerChar c
      low ++ go (c :: before) rest

def asciiLower (cs : List Char) : List Char := cs.map Char.toLower

def sameIgnoringCase (as bs : List Char) : Bool := asciiLower as == asciiLower bs

end FlowScript.Text
