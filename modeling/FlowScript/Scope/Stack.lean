import FlowScript.Scope

/-!
The variables of a run as one list of frames that hold slots, globals and locals alike. That there
is a frame for the globals and one for locals, and that no local is pending, is left to the
operations here; a scope has both by its type.
-/
namespace FlowScript

def Slot.value? : Slot → Option Value
  | pending => none
  | holding v => some v

/-- The globals come first, the innermost frame of locals last. -/
structure FrameStack where
  frames : List (Entries Slot)
  lastError : Option String
  deriving Repr

namespace FrameStack

def initial : FrameStack := ⟨[.ofList Scope.systemSlots, .empty], none⟩

def globals (st : FrameStack) : Entries Slot := st.frames.headD .empty

def localFrames (st : FrameStack) : List (Entries Slot) := st.frames.tail

def withGlobals (st : FrameStack) (globals : Entries Slot) : FrameStack :=
  { st with frames := globals :: st.localFrames }

def pushFrame (st : FrameStack) : FrameStack := { st with frames := st.frames ++ [.empty] }

def popFrame (st : FrameStack) : FrameStack :=
  if 2 < st.frames.length then { st with frames := st.frames.dropLast } else st

def valueIn? (name : String) (f : Entries Slot) : Option Value := (f.get? name).bind Slot.value?

def getLocal (st : FrameStack) (name : String) : Except RunError Value :=
  match st.localFrames.reverse.findSome? (valueIn? name) with
  | some v => .ok v
  | none => .error (.uninitializedVariable name)

def hasLocal (st : FrameStack) (name : String) : Bool :=
  st.localFrames.any fun f => (valueIn? name f).isSome

/-- The place of the innermost local frame that has the name, pending or not, or else of the
    innermost of all. -/
def target (st : FrameStack) (name : String) : Nat :=
  let above := (st.localFrames.reverse.findIdx? (·.contains name)).getD 0
  st.frames.length - 1 - above

def setLocal (st : FrameStack) (name : String) (v : Value) : FrameStack :=
  { st with frames := st.frames.modify (st.target name) (·.insert name (.holding v)) }

/-- A global that is read for the first time gets a slot, and a pending slot becomes null. -/
def getGlobal (st : FrameStack) (name : String) : Value × FrameStack :=
  let key := Scope.globalKey name
  let globals := if st.globals.contains key then st.globals else st.globals.insert key .pending
  match globals.get? key with
  | some (.holding v) => (v, st.withGlobals globals)
  | _ => (.null, st.withGlobals (globals.insert key (.holding .null)))

def peekGlobal (st : FrameStack) (name : String) : Option Value :=
  valueIn? (Scope.globalKey name) st.globals

def setGlobal (st : FrameStack) (name : String) (v : Value) : FrameStack :=
  st.withGlobals (st.globals.insert (Scope.globalKey name) (.holding v))

def get (st : FrameStack) (name : String) : Except RunError Value × FrameStack :=
  if Scope.isGlobalName name then
    let (v, st) := st.getGlobal name
    (.ok v, st)
  else (st.getLocal name, st)

def set (st : FrameStack) (name : String) (v : Value) : FrameStack :=
  if Scope.isGlobalName name then st.setGlobal name v else st.setLocal name v

def heldIn (f : Entries Slot) : List (String × Value) :=
  f.toList.filterMap fun p => p.2.value?.map (p.1, ·)

def locals (st : FrameStack) : List (String × Value) :=
  (Entries.ofList (st.localFrames.flatMap heldIn)).toList

def setLastError (st : FrameStack) (message : String) : FrameStack :=
  { st with lastError := some message }

end FrameStack
end FlowScript
