import FlowScript.Entries
import FlowScript.RunError
import FlowScript.Text.Quoted

/-!
The containers of a run. Handles are never reused; reading a handle that was never given out yields
an empty container.

Walks over nested containers are bounded by the number of containers, which no walk without a cycle
exceeds.
-/
namespace FlowScript

structure Store where
  arrays : Array (List Value)
  dictionaries : Array (Entries Value)
  deriving Repr

namespace Store

def empty : Store := ⟨#[], #[]⟩

instance : Inhabited Store := ⟨empty⟩

def size (s : Store) : Nat := s.arrays.size + s.dictionaries.size

def items (s : Store) (h : Handle) : List Value := s.arrays[h]?.getD []

def entries (s : Store) (h : Handle) : Entries Value := s.dictionaries[h]?.getD .empty

def newArray (s : Store) (values : List Value) : Value × Store :=
  (.array s.arrays.size, { s with arrays := s.arrays.push values })

def newDictionary (s : Store) (e : Entries Value) : Value × Store :=
  (.dictionary s.dictionaries.size, { s with dictionaries := s.dictionaries.push e })

def setItems (s : Store) (h : Handle) (values : List Value) : Store :=
  { s with arrays := s.arrays.setIfInBounds h values }

def setEntries (s : Store) (h : Handle) (e : Entries Value) : Store :=
  { s with dictionaries := s.dictionaries.setIfInBounds h e }

def children (s : Store) : Value → List Value
  | .array h => s.items h
  | .dictionary h => (s.entries h).values
  | _ => []

/-- Steps that suffice for every walk from a value down to a scalar. -/
def depthBound (s : Store) : Nat := s.size + 1

def holdsWithin (s : Store) (container : Value) : Nat → Value → Bool
  | 0, v => v.sameContainer container
  | n + 1, v => v.sameContainer container || (s.children v).any (s.holdsWithin container n)

/-- Whether `v` is the container or holds it at any depth. -/
def holds (s : Store) (v container : Value) : Bool := s.holdsWithin container s.depthBound v

def shallowCopy (s : Store) : Value → Value × Store
  | .array h => s.newArray (s.items h)
  | .dictionary h => s.newDictionary (s.entries h)
  | v => (v, s)

def toBool (s : Store) : Value → Bool
  | .null => false
  | .bool b => b
  | .number x => Number.isTruthy x
  | .text t => Text.isTruthy t.toList
  | .binary bytes => !bytes.isEmpty
  | .date _ => true
  | .array h => !(s.items h).isEmpty
  | .dictionary h => !(s.entries h).toList.isEmpty

def scalarText : Value → String
  | .null => ""
  | .bool b => if b then "1" else "0"
  | .number x => Number.text x
  | .text t => t
  | .binary bytes => String.ofList (Hex.encode bytes)
  | .date d => d.text
  | .array _ => "\x7b\x7d"
  | .dictionary _ => "[]"

def quoteNested (v : Value) (rendered : String) : String :=
  match v with
  | .text _ => "\"" ++ rendered ++ "\""
  | _ => rendered

def renderWithin (s : Store) : Nat → Value → String
  | 0, v => scalarText v
  | n + 1, v =>
    let nested := fun (v : Value) => quoteNested v (s.renderWithin n v)
    match v with
    | .array h => "\x7b" ++ ",".intercalate ((s.items h).map nested) ++ "\x7d"
    | .dictionary h =>
      let pairs := (s.entries h).toList.map fun p => p.1 ++ "=>" ++ nested p.2
      "[" ++ ",".intercalate pairs ++ "]"
    | v => scalarText v

def render (s : Store) (v : Value) : String := s.renderWithin s.depthBound v

def scalarData : Value → String
  | .null => "null"
  | .bool b => if b then "true" else "false"
  | .number x => Number.dataText x
  | .text t => Text.dataQuoted t
  | .binary bytes => Text.dataQuoted (String.ofList (Hex.encode bytes))
  | .date d => Text.dataQuoted d.text
  | .array _ => "[]"
  | .dictionary _ => "\x7b\x7d"

def dataWithin (s : Store) : Nat → Value → String
  | 0, v => scalarData v
  | n + 1, .array h => "[" ++ ",".intercalate ((s.items h).map (s.dataWithin n)) ++ "]"
  | n + 1, .dictionary h =>
    let sorted := (s.entries h).toList.mergeSort fun p q => decide (p.1 ≤ q.1)
    let pairs := sorted.map fun p => Text.dataQuoted p.1 ++ ":" ++ s.dataWithin n p.2
    "\x7b" ++ ",".intercalate pairs ++ "\x7d"
  | _ + 1, v => scalarData v

def toData (s : Store) (v : Value) : String := s.dataWithin s.depthBound v

def equalWithin (s : Store) : Nat → Value → Value → Bool
  | _, .null, .null => true
  | _, .bool a, .bool b => a == b
  | _, .number a, .number b => a == b
  | _, .text a, .text b => a == b
  | _, .binary a, .binary b => a == b
  | _, .date a, .date b => a == b
  | 0, .array a, .array b => a == b
  | 0, .dictionary a, .dictionary b => a == b
  | n + 1, .array a, .array b =>
    a == b ||
      ((s.items a).length == (s.items b).length &&
        ((s.items a).zip (s.items b)).all fun p => s.equalWithin n p.1 p.2)
  | n + 1, .dictionary a, .dictionary b =>
    a == b ||
      ((s.entries a).size == (s.entries b).size &&
        (s.entries a).toList.all fun p =>
          match (s.entries b).get? p.1 with
          | some v => s.equalWithin n p.2 v
          | none => false)
  | _, _, _ => false

/-- Equal contents; two names for one container are equal whatever it holds. -/
def equal (s : Store) (a b : Value) : Bool := s.equalWithin s.depthBound a b

end Store
end FlowScript
