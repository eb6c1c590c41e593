import FlowScript.Operator.Broadcast

/-!
Members of arrays and dictionaries. Arrays take keys that read as a number, dictionaries keys that
have a text.
-/
namespace FlowScript.Member

def indexOf (x : Float) : Option Nat :=
  if x.isNaN || x < 0.0 || x.isInf then none else some (Number.truncate x).toUInt64.toNat

/-- The position that a key names. No position for a key of the right kind is not an error. -/
def index? : Value → Except RunError (Option Nat)
  | .null => .ok (some 0)
  | .bool b => .ok (indexOf (Number.ofBool b))
  | .number x => .ok (indexOf x)
  | .text t => .ok (indexOf (Number.ofText t.toList))
  | v => .error (.unsupportedKeyType .array v.valueType)

def keyText : Value → Except RunError String
  | .bool b => .ok (if b then "1" else "0")
  | .number x => .ok (Number.text x)
  | .text t => .ok t
  | .date d => .ok d.text
  | v => .error (.unsupportedKeyType .dictionary v.valueType)

def read (s : Store) (object key : Value) : Except RunError Value :=
  match object with
  | .array h =>
    match index? key with
    | .error e => .error e
    | .ok index =>
      match index.bind fun i => (s.items h)[i]? with
      | some v => .ok v
      | none => .error (.indexOutOfRange (s.render key) (s.items h).length)
  | .dictionary h =>
    match keyText key with
    | .error e => .error e
    | .ok name => .ok (((s.entries h).get? name).getD .null)
  | v => .error (.notIndexable v.valueType)

def rejectCycle (s : Store) (container v : Value) : Except RunError Unit :=
  if s.holds v container then .error (.cyclicReference container.valueType) else .ok ()

/-- What became of a write. -/
inductive Written where
  | stored (v : Value)
  | outside (size : Nat)
  deriving Repr

/-- Stores a combined value by `put`, unless it would close a cycle. The combination itself may
    already have changed arrays in place. -/
def store (object next : Value) (s : Store) (put : Store → Store) :
    Except RunError Written × Store :=
  match rejectCycle s object next with
  | .ok () => (.ok (.stored next), put s)
  | .error e => (.error e, s)

/-- Writes `object[key] op= rhs`. Arrays do not grow: outside their bounds the new value is still
    worked out, but not stored. -/
def assign (s : Store) (object key : Value) (op : AssignOp) (rhs : Value) :
    Except RunError Written × Store :=
  match object with
  | .array h =>
    match index? key with
    | .error e => (.error e, s)
    | .ok index =>
      match index, index.bind fun i => (s.items h)[i]? with
      | some i, some current =>
        match Operator.combine s op current rhs with
        | .error e => (.error e, s)
        | .ok (next, s) => store object next s fun s => s.setItems h ((s.items h).set i next)
      | _, _ =>
        match Operator.combine s op .null rhs with
        | .error e => (.error e, s)
        | .ok (_, s) => (.ok (.outside (s.items h).length), s)
  | .dictionary h =>
    match keyText key with
    | .error e => (.error e, s)
    | .ok name =>
      match Operator.combine s op (((s.entries h).get? name).getD .null) rhs with
      | .error e => (.error e, s)
      | .ok (next, s) => store object next s fun s => s.setEntries h ((s.entries h).insert name next)
  | v => (.error (.notIndexable v.valueType), s)

end FlowScript.Member
