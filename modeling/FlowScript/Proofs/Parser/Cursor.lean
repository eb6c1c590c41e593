import FlowScript.Proofs.Parser.Complete

/-!
The parser as a machine with a place in the list of tokens, which ends with a mark. The machine may
look at places where there is no token, and its calls and rounds may nest deeper than they are
allowed to; both are outcomes of their own. Main statements: on any tokens, the first never happens,
nor does the second when the depth is large enough, and the machine then answers as the parser does,
so it accepts exactly what the grammar derives.
-/
namespace FlowScript.Parser

open Token (Kind)
open Grammar

namespace Cursor

inductive Halt where
  | mismatch (expected : Expected) (place : Nat)
  | outside
  deriving DecidableEq, Repr

/-- A part of the machine reads the tokens and moves the place. It has no outcome if its calls have
    to nest deeper than they may. -/
abbrev Scan (α : Type) : Type :=
  ReaderT (List (Option Kind)) (StateT Nat (ExceptT Halt Option)) α

def marked (ts : List Kind) : List (Option Kind) := ts.map some ++ [none]

def exhausted {α : Type} : Scan α := fun _ _ => none

def peek : Scan (Option Kind) := do
  let tokens ← MonadReader.read
  match tokens[← get]? with
  | some k => pure k
  | none => throw .outside

def advance : Scan Unit := do
  if (← peek).isSome then modify (· + 1)
  let tokens ← MonadReader.read
  match ← get with
  | 0 => throw .outside
  | place + 1 => if tokens[place]?.isNone then throw .outside

def fail {α : Type} (expected : Expected) : Scan α := do
  let _ ← peek
  throw (.mismatch expected (← get))

def check (s : Symbol) : Scan Bool := do
  match ← peek with
  | some (.symbol t) => pure (t == s)
  | _ => pure false

def accept (s : Symbol) : Scan Bool := do
  if ← check s then
    advance
    pure true
  else pure false

def acceptAny {α : Type} : List (Symbol × α) → Scan (Option α)
  | [] => pure none
  | (s, a) :: rest => do
    if ← accept s then pure (some a) else acceptAny rest

def consume (s : Symbol) (expected : Expected) : Scan Unit := do
  if ← check s then advance else fail expected

def assignments : List (Symbol × AssignOp) :=
  [(.equal, .assign), (.plusEqual, .addAssign), (.minusEqual, .subtractAssign)]

def leadings : List (Symbol × UnaryOp) :=
  [(.bang, .not), (.minus, .negative), (.plusPlus, .preIncrement), (.minusMinus, .preDecrement)]

def trailings : List (Symbol × UnaryOp) :=
  [(.plusPlus, .postIncrement), (.minusMinus, .postDecrement)]

-- A round of a loop is a call like any other. Nothing here says that the place moves on.
mutual

def expression : Nat → Scan Expr
  | 0 => exhausted
  | depth + 1 => do
    let target ← binary depth precedence
    match ← acceptAny assignments with
    | none => pure target
    | some op =>
      let value ← expression depth
      pure (.assign target op value)

def binary : Nat → List Level → Scan Expr
  | 0, _ => exhausted
  | depth + 1, [] => power depth
  | depth + 1, level :: tighter => do
    let first ← binary depth tighter
    chain depth level tighter first

def chain : Nat → Level → List Level → Expr → Scan Expr
  | 0, _, _, _ => exhausted
  | depth + 1, level, tighter, lhs => do
    match ← acceptAny level with
    | none => pure lhs
    | some op =>
      let rhs ← binary depth tighter
      chain depth level tighter (.binary lhs op rhs)

def power : Nat → Scan Expr
  | 0 => exhausted
  | depth + 1 => do
    let base ← unary depth
    if ← accept .caret then
      let exponent ← power depth
      pure (.binary base .power exponent)
    else pure base

def unary : Nat → Scan Expr
  | 0 => exhausted
  | depth + 1 => do
    match ← acceptAny leadings with
    | none => suffixed depth
    | some op =>
      let operand ← unary depth
      pure (.unary op operand)

def suffixed : Nat → Scan Expr
  | 0 => exhausted
  | depth + 1 => do
    let first ← primary depth
    suffixes depth first

def suffixes : Nat → Expr → Scan Expr
  | 0, _ => exhausted
  | depth + 1, object => do
    if ← accept .leftBracket then
      let key ← expression depth
      consume .rightBracket .indexEnd
      suffixes depth (.member object key)
    else
      match ← acceptAny trailings with
      | none => pure object
      | some op => suffixes depth (.unary op object)

def primary : Nat → Scan Expr
  | 0 => exhausted
  | depth + 1 => do
    match ← peek with
    | some (.number x) =>
      advance
      pure (.number x)
    | some (.text s) =>
      advance
      pure (.text s)
    | some (.bool b) =>
      advance
      pure (.bool b)
    | some (.global name) =>
      advance
      pure (.globalVar name)
    | some (.name name) =>
      advance
      if ← accept .leftParen then
        let args ← items depth .rightParen .argumentsEnd
        pure (.call name args)
      else pure (.localVar name)
    | some (.symbol s) =>
      if s = .leftParen then
        advance
        let inner ← expression depth
        consume .rightParen .groupEnd
        pure inner
      else if s = .leftBrace then
        advance
        let list ← items depth .rightBrace .arrayEnd
        pure (.array list)
      else fail .expression
    | none => fail .expression

def items : Nat → Symbol → Expected → Scan (List Expr)
  | 0, _, _ => exhausted
  | depth + 1, closing, expected => do
    if ← check closing then
      consume closing expected
      pure []
    else
      let list ← itemsFrom depth
      consume closing expected
      pure list

def itemsFrom : Nat → Scan (List Expr)
  | 0 => exhausted
  | depth + 1 => do
    let first ← expression depth
    if ← accept .comma then
      let more ← itemsFrom depth
      pure (first :: more)
    else pure [first]

end

def skipBreaks : Nat → Scan Unit
  | 0 => exhausted
  | depth + 1 => do
    if ← accept .semicolon then skipBreaks depth

def statements : Nat → Scan Program
  | 0 => exhausted
  | depth + 1 => do
    if (← peek).isNone then pure []
    else
      let first ← expression depth
      if (← peek).isSome then consume .semicolon .statementEnd
      skipBreaks depth
      let more ← statements depth
      pure (first :: more)

def program (depth : Nat) : Scan Program := do
  skipBreaks depth
  statements depth

variable {α β : Type} {ts : List Kind} {i : Nat}

/-- What becomes of a part that starts at the place, with the mark after the tokens. -/
def outcome (x : Scan α) (ts : List Kind) (i : Nat) : Option (Except Halt (α × Nat)) :=
  x (marked ts) i

theorem outcome_bind (x : Scan α) (f : α → Scan β) :
    outcome (x >>= f) ts i =
      match outcome x ts i with
      | some (.ok (a, j)) => outcome (f a) ts j
      | some (.error h) => some (.error h)
      | none => none := by
  simp only [outcome, bind, ReaderT.bind, StateT.bind, ExceptT.bind, ExceptT.mk, Option.bind]
  cases x (marked ts) i with
  | none => rfl
  | some r => cases r <;> rfl

theorem outcome_pure (a : α) : outcome (pure a) ts i = some (.ok (a, i)) := rfl

theorem outcome_throw (h : Halt) : outcome (throw h : Scan α) ts i = some (.error h) := rfl

theorem outcome_get : outcome get ts i = some (.ok (i, i)) := rfl

theorem outcome_read : outcome MonadReader.read ts i = some (.ok (marked ts, i)) := rfl

theorem outcome_modify (f : Nat → Nat) : outcome (modify f) ts i = some (.ok ((), f i)) := rfl

theorem marked_get (inside : i ≤ ts.length) : (marked ts)[i]? = some ts[i]? := by
  unfold marked
  by_cases last : i = ts.length
  · simp [last]
  · have before : i < ts.length := by omega
    simp [before, List.getElem?_append_left]

theorem outcome_peek (inside : i ≤ ts.length) : outcome peek ts i = some (.ok (ts[i]?, i)) := by
  simp only [peek, outcome_bind, outcome_read, outcome_get, marked_get inside, outcome_pure]

theorem outcome_fail (expected : Expected) (inside : i ≤ ts.length) :
    outcome (fail expected : Scan α) ts i = some (.error (.mismatch expected i)) := by
  simp only [fail, outcome_bind, outcome_peek inside, outcome_get, outcome_throw]

theorem outcome_advance (before : i < ts.length) :
    outcome advance ts i = some (.ok ((), i + 1)) := by
  have here : ts[i]?.isSome = true := by simp [before]
  simp only [advance, outcome_bind, outcome_peek (Nat.le_of_lt before), here, ↓reduceIte,
    outcome_modify, outcome_read, outcome_get, marked_get (Nat.le_of_lt before), Option.isNone_some,
    Bool.false_eq_true, outcome_pure]

theorem ahead_drop (ts : List Kind) (i : Nat) :
    ahead (ts.drop i) =
      match ts[i]? with
      | some (.symbol s) => some s
      | _ => none := by
  rw [← List.head?_drop]
  rcases ts.drop i with _ | ⟨_ | _ | _ | _ | _ | _, rest⟩ <;> rfl

theorem before_of_ahead {s : Symbol} (next : ahead (ts.drop i) = some s) : i < ts.length := by
  have some_left := length_of_ahead next
  rw [List.length_drop] at some_left
  omega

theorem outcome_check (s : Symbol) (inside : i ≤ ts.length) :
    outcome (check s) ts i = some (.ok (decide (ahead (ts.drop i) = some s), i)) := by
  simp only [check, outcome_bind, outcome_peek inside, ahead_drop]
  rcases ts[i]? with _ | _ | _ | _ | _ | _ | _
  all_goals simp [outcome_pure]
  rfl

theorem outcome_accept (s : Symbol) (inside : i ≤ ts.length) :
    outcome (accept s) ts i =
      some (.ok (if ahead (ts.drop i) = some s then (true, i + 1) else (false, i))) := by
  simp only [accept, outcome_bind, outcome_check s inside]
  by_cases next : ahead (ts.drop i) = some s
  · simp only [next, decide_true, ↓reduceIte, outcome_bind, outcome_advance (before_of_ahead next),
      outcome_pure]
  · simp only [next, decide_false, Bool.false_eq_true, ↓reduceIte, outcome_pure]

theorem outcome_acceptAny (table : List (Symbol × α)) (inside : i ≤ ts.length) :
    outcome (acceptAny table) ts i =
      match (ahead (ts.drop i)).bind fun s => table.lookup s with
      | some a => some (.ok (some a, i + 1))
      | none => some (.ok (none, i)) := by
  induction table with
  | nil => cases ahead (ts.drop i) <;> rfl
  | cons p rest ih =>
    obtain ⟨s, a⟩ := p
    rw [acceptAny, outcome_bind, outcome_accept s inside]
    by_cases next : ahead (ts.drop i) = some s
    · simp [next, outcome_pure]
    · have other : ((ahead (ts.drop i)).bind fun t => List.lookup t ((s, a) :: rest)) =
          (ahead (ts.drop i)).bind fun t => rest.lookup t := by
        cases found : ahead (ts.drop i) with
        | none => rfl
        | some t =>
          have apart : (t == s) = false := by
            rw [beq_eq_false_iff_ne]
            rintro rfl
            exact next found
          simp [List.lookup_cons, apart]
      simp only [next, ↓reduceIte, Bool.false_eq_true, other, ih]

/-- Started at the place, the part comes to this end as soon as its calls may nest deep enough, and
    to none before. -/
def Settles (ts : List Kind) (i : Nat) (x : Nat → Scan α) (r : Except Halt (α × Nat)) : Prop :=
  ∃ need, ∀ depth, outcome (x depth) ts i = if depth < need then none else some r

theorem settles_at_once {x : Nat → Scan α} {r : Except Halt (α × Nat)}
    (run : ∀ depth, outcome (x depth) ts i = some r) : Settles ts i x r := by
  refine ⟨0, fun depth => ?_⟩
  rw [run, if_neg (Nat.not_lt_zero depth)]

theorem Settles.bind {x : Nat → Scan α} {a : α} {j : Nat} {f : Nat → α → Scan β}
    {r : Except Halt (β × Nat)} (first : Settles ts i x (.ok (a, j)))
    (next : Settles ts j (fun depth => f depth a) r) :
    Settles ts i (fun depth => x depth >>= f depth) r := by
  obtain ⟨m, run⟩ := first
  obtain ⟨n, run'⟩ := next
  refine ⟨max m n, fun depth => ?_⟩
  rw [outcome_bind, run]
  by_cases early : depth < m
  · rw [if_pos early, if_pos (by omega)]
  · have rest : depth < max m n ↔ depth < n := by omega
    simp only [early, ↓reduceIte, rest]
    exact run' depth

theorem Settles.bind_error {x : Nat → Scan α} {h : Halt} (first : Settles ts i x (.error h))
    (f : Nat → α → Scan β) : Settles ts i (fun depth => x depth >>= f depth) (.error h) := by
  obtain ⟨need, run⟩ := first
  refine ⟨need, fun depth => ?_⟩
  rw [outcome_bind, run]
  by_cases early : depth < need
  · simp only [early, ↓reduceIte]
  · simp only [early, ↓reduceIte]

theorem Settles.deeper {x : Nat → Scan α} {r : Except Halt (α × Nat)} (stuck : x 0 = exhausted)
    (later : Settles ts i (fun depth => x (depth + 1)) r) : Settles ts i x r := by
  obtain ⟨need, run⟩ := later
  refine ⟨need + 1, fun depth => ?_⟩
  cases depth with
  | zero =>
    rw [stuck, if_pos (Nat.succ_pos need)]
    rfl
  | succ depth =>
    rw [run]
    simp only [Nat.add_lt_add_iff_right]

/-- Started at the place, the part answers as said of the tokens that are left, and comes to a place
    between two tokens, after the last or before the first. -/
def Follows (ts : List Kind) (i : Nat) (x : Nat → Scan α) :
    Except Mismatch (α × List Kind) → Prop
  | .ok (a, rest) => ∃ j, j ≤ ts.length ∧ rest = ts.drop j ∧ Settles ts i x (.ok (a, j))
  | .error m =>
    ∃ j, j ≤ ts.length ∧ m.rest = ts.drop j ∧ Settles ts i x (.error (.mismatch m.expected j))

theorem follows_pure (a : α) (inside : i ≤ ts.length) :
    Follows ts i (fun _ => pure a) (.ok (a, ts.drop i)) :=
  ⟨i, inside, rfl, settles_at_once fun _ => rfl⟩

theorem follows_fail (expected : Expected) (inside : i ≤ ts.length) :
    Follows ts i (fun _ => (fail expected : Scan α)) (.error ⟨expected, ts.drop i⟩) :=
  ⟨i, inside, rfl, settles_at_once fun _ => outcome_fail expected inside⟩

theorem Follows.mono {x : Nat → Scan α} {y : Nat → Scan α} {j : Nat}
    {r : Except Mismatch (α × List Kind)} (later : Follows ts j y r)
    (same : ∀ r', Settles ts j y r' → Settles ts i x r') : Follows ts i x r := by
  cases r with
  | error m =>
    obtain ⟨k, inside, rest, run⟩ := later
    exact ⟨k, inside, rest, same _ run⟩
  | ok p =>
    obtain ⟨k, inside, rest, run⟩ := later
    exact ⟨k, inside, rest, same _ run⟩

theorem Follows.deeper {x : Nat → Scan α} {r : Except Mismatch (α × List Kind)}
    (stuck : x 0 = exhausted) (later : Follows ts i (fun depth => x (depth + 1)) r) :
    Follows ts i x r :=
  later.mono fun _ => .deeper stuck

theorem Follows.bind {x : Nat → Scan α} {r : Except Mismatch (α × List Kind)}
    {f : Nat → α → Scan β} {g : α × List Kind → Except Mismatch (β × List Kind)}
    (first : Follows ts i x r)
    (next : ∀ a j, j ≤ ts.length → r = .ok (a, ts.drop j) →
      Follows ts j (fun depth => f depth a) (g (a, ts.drop j))) :
    Follows ts i (fun depth => x depth >>= f depth) (r >>= g) := by
  cases r with
  | error m =>
    obtain ⟨j, inside, rest, run⟩ := first
    exact ⟨j, inside, rest, run.bind_error f⟩
  | ok p =>
    obtain ⟨a, rest⟩ := p
    obtain ⟨j, inside, rfl, run⟩ := first
    exact (next a j inside rfl).mono fun _ => run.bind

theorem Follows.of_outcome {x y : Nat → Scan α} {j : Nat} {r : Except Mismatch (α × List Kind)}
    (later : Follows ts j y r)
    (same : ∀ depth, outcome (x depth) ts i = outcome (y depth) ts j) : Follows ts i x r := by
  refine later.mono fun _ ⟨need, run⟩ => ⟨need, fun depth => ?_⟩
  rw [same, run]

theorem follows_peek {f : Nat → Option Kind → Scan α} {r : Except Mismatch (α × List Kind)}
    (inside : i ≤ ts.length) (next : Follows ts i (fun depth => f depth ts[i]?) r) :
    Follows ts i (fun depth => peek >>= f depth) r :=
  next.of_outcome fun _ => by rw [outcome_bind, outcome_peek inside]

theorem follows_advance {f : Nat → Unit → Scan α} {r : Except Mismatch (α × List Kind)}
    (before : i < ts.length) (next : Follows ts (i + 1) (fun depth => f depth ()) r) :
    Follows ts i (fun depth => advance >>= f depth) r :=
  next.of_outcome fun _ => by rw [outcome_bind, outcome_advance before]

theorem follows_accept {s : Symbol} {f : Nat → Bool → Scan α}
    {r : Except Mismatch (α × List Kind)} (inside : i ≤ ts.length)
    (yes : ahead (ts.drop i) = some s → i + 1 ≤ ts.length →
      Follows ts (i + 1) (fun depth => f depth true) r)
    (no : ahead (ts.drop i) ≠ some s → Follows ts i (fun depth => f depth false) r) :
    Follows ts i (fun depth => accept s >>= f depth) r := by
  have run := outcome_accept s inside
  by_cases next : ahead (ts.drop i) = some s
  · refine (yes next (before_of_ahead next)).of_outcome fun _ => ?_
    rw [outcome_bind, run, if_pos next]
  · refine (no next).of_outcome fun _ => ?_
    rw [outcome_bind, run, if_neg next]

theorem follows_acceptAny {table : List (Symbol × β)} {f : Nat → Option β → Scan α}
    {r : Except Mismatch (α × List Kind)} (inside : i ≤ ts.length)
    (yes : ∀ b, ((ahead (ts.drop i)).bind fun s => table.lookup s) = some b → i + 1 ≤ ts.length →
      Follows ts (i + 1) (fun depth => f depth (some b)) r)
    (no : ((ahead (ts.drop i)).bind fun s => table.lookup s) = none →
      Follows ts i (fun depth => f depth none) r) :
    Follows ts i (fun depth => acceptAny table >>= f depth) r := by
  have run := outcome_acceptAny table inside
  cases found : (ahead (ts.drop i)).bind fun s => table.lookup s with
  | some b =>
    obtain ⟨s, next, _⟩ := Option.bind_eq_some_iff.mp found
    refine (yes b found (before_of_ahead next)).of_outcome fun _ => ?_
    rw [outcome_bind, run, found]
  | none =>
    refine (no found).of_outcome fun _ => ?_
    rw [outcome_bind, run, found]

theorem follows_consume {s : Symbol} {expected : Expected} {f : Nat → Unit → Scan α}
    {r : Except Mismatch (α × List Kind)} (inside : i ≤ ts.length)
    (yes : ahead (ts.drop i) = some s → i + 1 ≤ ts.length →
      Follows ts (i + 1) (fun depth => f depth ()) r) :
    Follows ts i (fun depth => consume s expected >>= f depth)
      (if ahead (ts.drop i) = some s then r else .error ⟨expected, ts.drop i⟩) := by
  by_cases next : ahead (ts.drop i) = some s
  · rw [if_pos next]
    refine (yes next (before_of_ahead next)).of_outcome fun _ => ?_
    simp only [consume, outcome_bind, outcome_check s inside, next, decide_true, ↓reduceIte,
      outcome_advance (before_of_ahead next)]
  · rw [if_neg next]
    refine ⟨i, inside, rfl, settles_at_once fun _ => ?_⟩
    simp only [consume, outcome_bind, outcome_check s inside, next, decide_false,
      Bool.false_eq_true, ↓reduceIte, outcome_fail expected inside]

theorem lookup_assignments : (fun s => assignments.lookup s) = assignOp? := by
  funext s
  cases s <;> rfl

theorem lookup_leadings : (fun s => leadings.lookup s) = leadingOp? := by
  funext s
  cases s <;> rfl

theorem lookup_trailings : (fun s => trailings.lookup s) = trailingOp? := by
  funext s
  cases s <;> rfl

theorem further_of_plain {j : Nat} {r : Except Mismatch (Reading (ts.drop i).length)} {e : Expr}
    (read : plain r = .ok (e, ts.drop j)) : i < j := by
  have fewer := shorter_of_plain read
  simp only [List.length_drop] at fewer
  omega

theorem chain_follows {start : Nat} {level : Level} {tighter : List Level}
    (below : ∀ i, start ≤ i → i ≤ ts.length →
      Follows ts i (binary · tighter) (plain (Parser.binary tighter (ts.drop i))))
    (lhs : Expr) (further : start ≤ i) (inside : i ≤ ts.length) :
    Follows ts i (chain · level tighter lhs)
      (plain (Parser.chain level tighter lhs (ts.drop i))) := by
  induction h : ts.length - i using Nat.strongRecOn generalizing i lhs with
  | ind n ih =>
    refine .deeper rfl ?_
    simp only [chain]
    rw [plain_chain]
    refine follows_acceptAny inside ?_ ?_
    · intro op found inside'
      simp only [found]
      rw [List.tail_drop]
      refine (below (i + 1) (by omega) inside').bind fun rhs j inside' read => ?_
      have after := further_of_plain read
      exact ih (ts.length - j) (by omega) (.binary lhs op rhs) (by omega) inside' rfl
    · intro found
      simp only [found]
      exact follows_pure lhs inside

section Below

variable {start : Nat}
  (inner : ∀ i, start < i → i ≤ ts.length →
    Follows ts i expression (plain (Parser.expression (ts.drop i))))

include inner

theorem itemsFrom_follows (closing : Symbol) (expected : Expected) (further : start < i)
    (inside : i ≤ ts.length) :
    Follows ts i (fun depth => do let list ← itemsFrom depth; consume closing expected; pure list)
      (plainList (Parser.itemsFrom closing expected (ts.drop i))) := by
  induction h : ts.length - i using Nat.strongRecOn generalizing i with
  | ind n ih =>
    refine .deeper rfl ?_
    simp only [itemsFrom, bind_assoc]
    rw [plain_itemsFrom]
    refine (inner i further inside).bind fun first j inside' read => ?_
    have after := further_of_plain read
    refine follows_accept inside' ?_ ?_
    · intro comma inside'
      simp only [comma, ↓reduceIte, bind_assoc, pure_bind]
      rw [List.tail_drop]
      -- The machine adds the first item before the list is closed, the parser afterwards.
      have closed := ih (ts.length - (j + 1)) (by omega) (by omega) inside' rfl
      have longer := closed.bind (f := fun _ more => pure (first :: more))
        (g := fun p => .ok (first :: p.1, p.2)) fun more k inside' _ => follows_pure _ inside'
      simpa only [bind_assoc, pure_bind] using longer
    · intro other
      simp only [other, ↓reduceIte, Bool.false_eq_true, pure_bind]
      refine follows_consume inside' fun closed inside' => ?_
      rw [List.tail_drop]
      exact follows_pure _ inside'

theorem items_follows (closing : Symbol) (expected : Expected) (further : start < i)
    (inside : i ≤ ts.length) :
    Follows ts i (items · closing expected)
      (plainList (Parser.items closing expected (ts.drop i))) := by
  refine .deeper rfl ?_
  simp only [items]
  rw [plain_items]
  have looked := outcome_check closing inside
  by_cases next : ahead (ts.drop i) = some closing
  · have closed :
        Follows ts i (fun _ => consume closing expected >>= fun _ => pure ([] : List Expr)) _ :=
      follows_consume inside fun _ inside' => follows_pure [] inside'
    rw [if_pos next] at closed ⊢
    rw [List.tail_drop]
    refine closed.of_outcome fun _ => ?_
    simp only [outcome_bind, looked, next, decide_true, ↓reduceIte]
  · rw [if_neg next]
    refine (itemsFrom_follows inner closing expected further inside).of_outcome fun _ => ?_
    simp only [outcome_bind, looked, next, decide_false, Bool.false_eq_true, ↓reduceIte]

theorem primary_follows (further : start ≤ i) (inside : i ≤ ts.length) :
    Follows ts i primary (plain (Parser.primary (ts.drop i))) := by
  refine .deeper rfl ?_
  simp only [primary]
  rw [plain_primary]
  refine follows_peek inside ?_
  rw [← List.head?_drop]
  cases here : ts.drop i with
  | nil =>
    have failed := follows_fail (α := Expr) .expression inside
    rwa [here] at failed
  | cons k rest =>
    have before : i < ts.length := by
      have some_left := congrArg List.length here
      rw [List.length_drop, List.length_cons] at some_left
      omega
    have after : rest = ts.drop (i + 1) := by rw [← List.tail_drop, here, List.tail_cons]
    subst after
    -- The tokens that are expressions of their own.
    cases k with
    | number x => exact follows_advance before (follows_pure _ before)
    | text s => exact follows_advance before (follows_pure _ before)
    | bool b => exact follows_advance before (follows_pure _ before)
    | global name => exact follows_advance before (follows_pure _ before)
    | name name =>
      refine follows_advance before (follows_accept before ?_ ?_)
      · intro called inside'
        simp only [called, ↓reduceIte]
        rw [List.tail_drop]
        refine (items_follows inner .rightParen .argumentsEnd (by omega) inside').bind ?_
        intro args j inside' _
        exact follows_pure _ inside'
      · intro other
        simp only [other, ↓reduceIte]
        exact follows_pure _ before
    | symbol s =>
      simp only [List.head?_cons]
      by_cases group : s = .leftParen
      · simp only [group, ↓reduceIte]
        refine follows_advance before ?_
        refine (inner (i + 1) (by omega) before).bind fun e j inside' _ => ?_
        refine follows_consume inside' fun closed inside' => ?_
        rw [List.tail_drop]
        exact follows_pure e inside'
      by_cases array : s = .leftBrace
      · simp only [array, reduceCtorEq, ↓reduceIte]
        refine follows_advance before ?_
        refine (items_follows inner .rightBrace .arrayEnd (by omega) before).bind ?_
        intro list j inside' _
        exact follows_pure _ inside'
      · simp only [group, array, ↓reduceIte]
        rw [← here]
        exact follows_fail .expression inside

theorem suffixes_follows (object : Expr) (further : start ≤ i) (inside : i ≤ ts.length) :
    Follows ts i (suffixes · object) (plain (Parser.suffixes object (ts.drop i))) := by
  induction h : ts.length - i using Nat.strongRecOn generalizing i object with
  | ind n ih =>
    refine .deeper rfl ?_
    simp only [suffixes]
    rw [plain_suffixes]
    refine follows_accept inside ?_ ?_
    · intro index inside'
      rw [if_pos index, List.tail_drop]
      refine (inner (i + 1) (by omega) inside').bind fun key j inside' read => ?_
      have after := further_of_plain read
      refine follows_consume inside' fun closed inside' => ?_
      rw [List.tail_drop]
      exact ih (ts.length - (j + 1)) (by omega) (.member object key) (by omega) inside' rfl
    · intro other
      simp only [other, ↓reduceIte, ← lookup_trailings]
      refine follows_acceptAny inside ?_ ?_
      · intro op found inside'
        simp only [found]
        rw [List.tail_drop]
        exact ih (ts.length - (i + 1)) (by omega) (.unary op object) (by omega) inside' rfl
      · intro found
        simp only [found]
        exact follows_pure object inside

theorem suffixed_follows (further : start ≤ i) (inside : i ≤ ts.length) :
    Follows ts i suffixed (plain (Parser.suffixed (ts.drop i))) := by
  refine .deeper rfl ?_
  simp only [suffixed]
  rw [plain_suffixed]
  refine (primary_follows inner further inside).bind fun first j inside' read => ?_
  have after := further_of_plain read
  exact suffixes_follows inner first (by omega) inside'

theorem unary_follows (further : start ≤ i) (inside : i ≤ ts.length) :
    Follows ts i unary (plain (Parser.unary (ts.drop i))) := by
  induction h : ts.length - i using Nat.strongRecOn generalizing i with
  | ind n ih =>
    refine .deeper rfl ?_
    simp only [unary]
    rw [plain_unary, ← lookup_leadings]
    refine follows_acceptAny inside ?_ ?_
    · intro op found inside'
      simp only [found]
      rw [List.tail_drop]
      refine (ih (ts.length - (i + 1)) (by omega) (by omega) inside' rfl).bind ?_
      intro operand j inside' _
      exact follows_pure _ inside'
    · intro found
      simp only [found]
      exact suffixed_follows inner further inside

theorem power_follows (further : start ≤ i) (inside : i ≤ ts.length) :
    Follows ts i power (plain (Parser.power (ts.drop i))) := by
  induction h : ts.length - i using Nat.strongRecOn generalizing i with
  | ind n ih =>
    refine .deeper rfl ?_
    simp only [power]
    rw [plain_power]
    refine (unary_follows inner further inside).bind fun base j inside' read => ?_
    have after := further_of_plain read
    refine follows_accept inside' ?_ ?_
    · intro caret inside'
      simp only [caret, ↓reduceIte]
      rw [List.tail_drop]
      refine (ih (ts.length - (j + 1)) (by omega) (by omega) inside' rfl).bind ?_
      intro exponent k inside' _
      exact follows_pure _ inside'
    · intro other
      simp only [other, ↓reduceIte]
      exact follows_pure base inside'

theorem binary_follows (levels : List Level) (further : start ≤ i) (inside : i ≤ ts.length) :
    Follows ts i (binary · levels) (plain (Parser.binary levels (ts.drop i))) := by
  induction levels generalizing i with
  | nil =>
    refine .deeper rfl ?_
    simp only [binary]
    rw [plain_binary_nil]
    exact power_follows inner further inside
  | cons level tighter ih =>
    refine .deeper rfl ?_
    simp only [binary]
    rw [plain_binary_cons]
    refine (ih further inside).bind fun first j inside' read => ?_
    have after := further_of_plain read
    exact chain_follows (fun i => ih) first (by omega) inside'

end Below

theorem expression_follows (inside : i ≤ ts.length) :
    Follows ts i expression (plain (Parser.expression (ts.drop i))) := by
  induction h : ts.length - i using Nat.strongRecOn generalizing i with
  | ind n ih =>
    have inner : ∀ j, i < j → j ≤ ts.length →
        Follows ts j expression (plain (Parser.expression (ts.drop j))) :=
      fun j after inside' => ih (ts.length - j) (by omega) inside' rfl
    refine .deeper rfl ?_
    simp only [expression]
    rw [plain_expression, ← lookup_assignments]
    refine (binary_follows inner precedence (Nat.le_refl i) inside).bind ?_
    intro target j inside' read
    have after := further_of_plain read
    refine follows_acceptAny inside' ?_ ?_
    · intro op found inside'
      simp only [found]
      rw [List.tail_drop]
      refine (inner (j + 1) (by omega) inside').bind fun value k inside' _ => ?_
      exact follows_pure _ inside'
    · intro found
      simp only [found]
      exact follows_pure target inside'

theorem outcome_skipBreaks (inside : i ≤ ts.length) :
    ∃ j, i ≤ j ∧ j ≤ ts.length ∧ Settles ts i skipBreaks (.ok ((), j)) ∧
      ahead (ts.drop j) ≠ some .semicolon ∧
      Parser.program (ts.drop i) = Parser.program (ts.drop j) := by
  induction h : ts.length - i using Nat.strongRecOn generalizing i with
  | ind n ih =>
    have run := outcome_accept .semicolon inside
    by_cases next : ahead (ts.drop i) = some .semicolon
    · rw [if_pos next] at run
      have before := before_of_ahead next
      obtain ⟨j, after, inside', rest, stopped, same⟩ :=
        ih (ts.length - (i + 1)) (by omega) before rfl
      refine ⟨j, by omega, inside', .deeper rfl ?_, stopped, ?_⟩
      · exact (settles_at_once fun _ => run).bind rest
      · rw [← same, program_eq, if_neg (by simpa using before), if_pos next, List.tail_drop]
    · rw [if_neg next] at run
      refine ⟨i, Nat.le_refl i, inside, .deeper rfl ?_, next, rfl⟩
      exact (settles_at_once fun _ => run).bind (settles_at_once fun _ => rfl)

/-- A program that leaves no tokens. -/
def whole (r : Except Mismatch Program) : Except Mismatch (Program × List Kind) :=
  r.map fun p => (p, [])

theorem follows_skipBreaks {x : Nat → Scan Program} (inside : i ≤ ts.length)
    (next : ∀ j, i ≤ j → j ≤ ts.length → ahead (ts.drop j) ≠ some .semicolon →
      Follows ts j x (whole (Parser.program (ts.drop j)))) :
    Follows ts i (fun depth => do skipBreaks depth; x depth)
      (whole (Parser.program (ts.drop i))) := by
  obtain ⟨j, after, inside', run, stopped, same⟩ := outcome_skipBreaks inside
  rw [same]
  exact (next j after inside' stopped).mono fun _ => run.bind (f := fun depth _ => x depth)

theorem whole_bind {x : Except Mismatch α} {f : α → Except Mismatch Program} :
    whole (x >>= f) = x >>= fun a => whole (f a) := by
  cases x <;> rfl

theorem follows_more (first : Expr) (inside : i ≤ ts.length)
    (next : ∀ j, i ≤ j → j ≤ ts.length → ahead (ts.drop j) ≠ some .semicolon →
      Follows ts j statements (whole (Parser.program (ts.drop j)))) :
    Follows ts i
      (fun depth => do skipBreaks depth; let more ← statements depth; pure (first :: more))
      (whole (do let more ← Parser.program (ts.drop i); .ok (first :: more))) := by
  have read := (follows_skipBreaks inside next).bind
    (f := fun _ more => pure (first :: more)) (g := fun p => .ok (first :: p.1, p.2))
    fun more j inside' _ => follows_pure _ inside'
  simp only [bind_assoc] at read
  cases h : Parser.program (ts.drop i) with
  | error m =>
    rw [h] at read
    exact read
  | ok p =>
    rw [h] at read
    exact read

theorem statements_follows (inside : i ≤ ts.length) (start : ahead (ts.drop i) ≠ some .semicolon) :
    Follows ts i statements (whole (Parser.program (ts.drop i))) := by
  induction h : ts.length - i using Nat.strongRecOn generalizing i with
  | ind n ih =>
    refine .deeper rfl ?_
    simp only [statements]
    rw [program_eq]
    refine follows_peek inside ?_
    by_cases last : i = ts.length
    · subst last
      have nothing : ts.drop ts.length = [] := by simp
      rw [if_pos nothing, List.getElem?_eq_none (Nat.le_refl _)]
      exact ⟨ts.length, Nat.le_refl _, nothing.symm, settles_at_once fun _ => rfl⟩
    have before : i < ts.length := by omega
    have some_left : ts.drop i ≠ [] := by simpa using before
    simp only [some_left, start, ↓reduceIte, List.getElem?_eq_getElem before, Option.isNone_some,
      Bool.false_eq_true, whole_bind]
    refine (expression_follows inside).bind fun first j inside' read => ?_
    have after := further_of_plain read
    have more : ∀ k, j ≤ k → k ≤ ts.length → ahead (ts.drop k) ≠ some .semicolon →
        Follows ts k statements (whole (Parser.program (ts.drop k))) :=
      fun k later inside' start' => ih (ts.length - k) (by omega) inside' start' rfl
    refine follows_peek inside' ?_
    by_cases last : j = ts.length
    · subst last
      have nothing : ts.drop ts.length = [] := by simp
      have ended := follows_more first (Nat.le_refl ts.length) more
      rw [nothing, program_eq] at ended
      simp only [nothing, ↓reduceIte, List.getElem?_eq_none (Nat.le_refl ts.length),
        Option.isSome_none, Bool.false_eq_true]
      exact ended
    · have before : j < ts.length := by omega
      have some_left : ts.drop j ≠ [] := by simpa using before
      simp only [some_left, ↓reduceIte, List.getElem?_eq_getElem before, Option.isSome_some]
      rw [apply_ite whole, List.tail_drop]
      exact follows_consume inside' fun _ inside'' =>
        follows_more first inside'' fun k later => more k (by omega)

theorem program_follows (ts : List Kind) : Follows ts 0 program (whole (Parser.program ts)) :=
  follows_skipBreaks (Nat.zero_le _) fun _ _ inside start => statements_follows inside start

theorem place_of_rest {tokens : List Token} {stop : Position} {place : Nat}
    (inside : place ≤ tokens.length) :
    (tokens.map (·.position) ++ [stop])[place]? =
      some (placeOfLast (tokens.length - place) tokens stop) := by
  have back : tokens.length - (tokens.length - place) = place := by omega
  rw [placeOfLast, back]
  by_cases last : place = tokens.length
  · simp [last]
  · have before : place < tokens.length := by omega
    rw [List.drop_eq_getElem_cons before, List.getElem?_append_left (by simpa using before)]
    simp [before]

end Cursor

/-- The parser accepts exactly what the grammar derives, and the grammar derives no two programs
    from the same tokens. The machine with a place in the list comes to the same answer on every
    list that ends with its mark, accepted or not, once its calls may nest deep enough. So it always
    stops, and at no depth does it look outside of the list. -/
theorem read_is_the_grammar (tokens : List Token) (stop : Position) :
    (∀ p, read tokens stop = .ok p ↔ Sentence (tokens.map (·.kind)) p) ∧
    (∀ p q, Sentence (tokens.map (·.kind)) p → Sentence (tokens.map (·.kind)) q → p = q) ∧
    match read tokens stop with
    | .ok p =>
      Cursor.Settles (tokens.map (·.kind)) 0 Cursor.program (.ok (p, tokens.length))
    | .error failure => ∃ place,
      Cursor.Settles (tokens.map (·.kind)) 0 Cursor.program
        (.error (.mismatch failure.expected place)) ∧
      (tokens.map (·.position) ++ [stop])[place]? = some failure.position := by
  have answer : ∀ p, read tokens stop = .ok p ↔ Sentence (tokens.map (·.kind)) p := by
    intro p
    rw [← program_iff, read]
    cases program (tokens.map (·.kind)) <;> simp
  refine ⟨answer, ?_, ?_⟩
  · intro p q left right
    have same := (answer p |>.mpr left).symm.trans (answer q |>.mpr right)
    exact Except.ok.inj same
  · have follows := Cursor.program_follows (tokens.map (·.kind))
    rw [read]
    cases parsed : program (tokens.map (·.kind)) with
    | ok p =>
      rw [parsed] at follows
      obtain ⟨j, inside, nothing, run⟩ := follows
      have last : j = tokens.length := by
        have none_left := congrArg List.length nothing
        simp at none_left inside
        omega
      rw [← last]
      exact run
    | error m =>
      rw [parsed] at follows
      obtain ⟨j, inside, rest, run⟩ := follows
      refine ⟨j, run, ?_⟩
      rw [List.length_map] at inside
      rw [Cursor.place_of_rest inside, rest]
      simp

end FlowScript.Parser
