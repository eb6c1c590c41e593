import FlowScript.Entries
import FlowScript.RunError
import FlowScript.SystemVariable

/-!
The variables of a run. Globals are known by names with a dollar sign. Locals live in frames, of
which there is always at least one; an assignment goes to the innermost frame that has the name.
-/
namespace FlowScript

/-- A global that nothing was assigned to is pending until it is first read as null. -/
inductive Slot where
  | pending
  | holding (v : Value)
  deriving Repr

abbrev Frame := Entries Value

structure Scope where
  globals : Entries Slot
  frame : Frame
  outer : List Frame
  lastError : Option String
  deriving Repr

namespace Scope

def systemSlots : List (String × Slot) :=
  SystemVariable.all.map fun v =>
    (v.name, match v.initial? with
      | some value => Slot.holding value
      | none => Slot.pending)

def initial : Scope := ⟨.ofList systemSlots, .empty, [], none⟩

def frames (sc : Scope) : List Frame := sc.frame :: sc.outer

def pushFrame (sc : Scope) : Scope := { sc with frame := .empty, outer := sc.frame :: sc.outer }

/-- Drops the innermost frame, unless it is the only one. -/
def popFrame (sc : Scope) : Scope :=
  match sc.outer with
  | [] => sc
  | f :: rest => { sc with frame := f, outer := rest }

def local? (sc : Scope) (name : String) : Option Value := sc.frames.findSome? (·.get? name)

def getLocal (sc : Scope) (name : String) : Except RunError Value :=
  match sc.local? name with
  | some v => .ok v
  | none => .error (.uninitializedVariable name)

def hasLocal (sc : Scope) (name : String) : Bool := sc.frames.any (·.contains name)

def overwrite? (name : String) (v : Value) : List Frame → Option (List Frame)
  | [] => none
  | f :: rest =>
    if f.contains name then some (f.insert name v :: rest)
    else (overwrite? name v rest).map (f :: ·)

def setLocal (sc : Scope) (name : String) (v : Value) : Scope :=
  if sc.frame.contains name then { sc with frame := sc.frame.insert name v }
  else
    match overwrite? name v sc.outer with
    | some outer => { sc with outer }
    | none => { sc with frame := sc.frame.insert name v }

def isGlobalName (name : String) : Bool := name.toList.head? == some '$'

def globalKey (name : String) : String := if isGlobalName name then name else "$" ++ name

/-- The value of a global. Reading one that has none makes it null. -/
def getGlobal (sc : Scope) (name : String) : Value × Scope :=
  let key := globalKey name
  match sc.globals.get? key with
  | some (.holding v) => (v, sc)
  | _ => (.null, { sc with globals := sc.globals.insert key (.holding .null) })

def peekGlobal (sc : Scope) (name : String) : Option Value :=
  match sc.globals.get? (globalKey name) with
  | some (.holding v) => some v
  | _ => none

def setGlobal (sc : Scope) (name : String) (v : Value) : Scope :=
  { sc with globals := sc.globals.insert (globalKey name) (.holding v) }

def get (sc : Scope) (name : String) : Except RunError Value × Scope :=
  if isGlobalName name then
    let (v, sc) := sc.getGlobal name
    (.ok v, sc)
  else (sc.getLocal name, sc)

def set (sc : Scope) (name : String) (v : Value) : Scope :=
  if isGlobalName name then sc.setGlobal name v else sc.setLocal name v

def locals (sc : Scope) : List (String × Value) :=
  (Entries.ofList (sc.frames.reverse.flatMap (·.toList))).toList

def setLastError (sc : Scope) (message : String) : Scope := { sc with lastError := some message }

end Scope
end FlowScript
