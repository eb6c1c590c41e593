import FlowScript.Expr.Parser

/-!
The parser, function by function, in terms of the symbol ahead and the tokens after it. Every later
result about the parser rests on these equations.
-/
namespace FlowScript.Parser

open Token (Kind)

def ahead : List Kind → Option Symbol
  | .symbol s :: _ => some s
  | _ => none

theorem eq_of_ahead {ts : List Kind} {s : Symbol} (next : ahead ts = some s) :
    ts = .symbol s :: ts.tail := by
  unfold ahead at next
  split at next
  · cases next
    rfl
  · cases next

theorem length_of_ahead {ts : List Kind} {s : Symbol} (next : ahead ts = some s) :
    ts.length = ts.tail.length + 1 := by
  rw [eq_of_ahead next]
  rfl

def trailingOp? : Symbol → Option UnaryOp
  | .plusPlus => some .postIncrement
  | .minusMinus => some .postDecrement
  | _ => none

/-- A reading without the proof that it has come forward. -/
def plain {size : Nat} (r : Except Mismatch (Reading size)) : Except Mismatch (Expr × List Kind) :=
  r.map fun r => (r.expr, r.rest)

def plainList {size : Nat} (r : Except Mismatch (ListReading size)) :
    Except Mismatch (List Expr × List Kind) :=
  r.map fun r => (r.exprs, r.rest)

theorem bind_eq_ok {α β : Type} {x : Except Mismatch α} {f : α → Except Mismatch β} {b : β} :
    (x >>= f) = .ok b ↔ ∃ a, x = .ok a ∧ f a = .ok b := by
  cases x <;> simp [bind, Except.bind]

theorem shorter_of_plain {size : Nat} {r : Except Mismatch (Reading size)} {e : Expr}
    {rest : List Kind} (done : plain r = .ok (e, rest)) : rest.length < size := by
  cases r with
  | error m => cases done
  | ok r =>
    cases done
    exact r.shorter

theorem plain_expression (ts : List Kind) :
    plain (expression ts) = (do
      let (target, rest) ← plain (binary precedence ts)
      match (ahead rest).bind assignOp? with
      | none => .ok (target, rest)
      | some op => (do
        let (value, left) ← plain (expression rest.tail)
        .ok (.assign target op value, left))) := by
  rw [expression]
  cases binary precedence ts with
  | error m => rfl
  | ok target =>
    obtain ⟨e, rest, shorter⟩ := target
    rcases rest with _ | ⟨_ | _ | _ | _ | _ | _, more⟩ <;> try rfl
    rename_i s
    simp only [plain, Except.map, bind, Except.bind, ahead, Option.bind_some, List.tail_cons]
    cases assignOp? s with
    | none => rfl
    | some op => cases expression more <;> rfl

theorem plain_binary_nil (ts : List Kind) : plain (binary [] ts) = plain (power ts) := by
  rw [binary]

theorem plain_binary_cons (level : Level) (tighter : List Level) (ts : List Kind) :
    plain (binary (level :: tighter) ts) = (do
      let (first, rest) ← plain (binary tighter ts)
      plain (chain level tighter first rest)) := by
  rw [binary]
  cases binary tighter ts with
  | error m => rfl
  | ok first =>
    simp only [plain, Except.map, bind, Except.bind]
    cases chain level tighter first.expr first.rest <;> rfl

theorem plain_chain (level : Level) (tighter : List Level) (lhs : Expr) (ts : List Kind) :
    plain (chain level tighter lhs ts) =
      match (ahead ts).bind fun s => level.lookup s with
      | none => .ok (lhs, ts)
      | some op => (do
        let (rhs, left) ← plain (binary tighter ts.tail)
        plain (chain level tighter (.binary lhs op rhs) left)) := by
  rcases ts with _ | ⟨_ | _ | _ | _ | _ | _, rest⟩ <;> rw [chain.eq_def] <;> try rfl
  rename_i s
  simp only [ahead, Option.bind_some, List.tail_cons]
  cases level.lookup s with
  | none => rfl
  | some op =>
    cases binary tighter rest with
    | error m => rfl
    | ok rhs =>
      simp only [plain, Except.map, bind, Except.bind]
      cases chain level tighter (.binary lhs op rhs.expr) rhs.rest <;> rfl

theorem plain_power (ts : List Kind) :
    plain (power ts) = (do
      let (base, rest) ← plain (unary ts)
      if ahead rest = some .caret then do
        let (exponent, left) ← plain (power rest.tail)
        .ok (.binary base .power exponent, left)
      else .ok (base, rest)) := by
  rw [power]
  cases unary ts with
  | error m => rfl
  | ok base =>
    obtain ⟨e, rest, shorter⟩ := base
    rcases rest with _ | ⟨_ | _ | _ | _ | _ | _, more⟩ <;> try rfl
    rename_i s
    cases s <;> try rfl
    simp only [plain, Except.map, bind, Except.bind, ahead, List.tail_cons, ↓reduceIte]
    cases power more <;> rfl

theorem plain_unary (ts : List Kind) :
    plain (unary ts) =
      match (ahead ts).bind leadingOp? with
      | none => plain (suffixed ts)
      | some op => (do
        let (operand, left) ← plain (unary ts.tail)
        .ok (.unary op operand, left)) := by
  rcases ts with _ | ⟨_ | _ | _ | _ | _ | _, rest⟩ <;> rw [unary.eq_def] <;> try rfl
  rename_i s
  simp only [ahead, Option.bind_some, List.tail_cons]
  cases leadingOp? s with
  | none => rfl
  | some op => cases unary rest <;> rfl

theorem plain_suffixed (ts : List Kind) :
    plain (suffixed ts) = (do
      let (first, rest) ← plain (primary ts)
      plain (suffixes first rest)) := by
  rw [suffixed]
  cases primary ts with
  | error m => rfl
  | ok first =>
    simp only [plain, Except.map, bind, Except.bind]
    cases suffixes first.expr first.rest <;> rfl

theorem plain_suffixes (object : Expr) (ts : List Kind) :
    plain (suffixes object ts) =
      if ahead ts = some .leftBracket then do
        let (key, left) ← plain (expression ts.tail)
        if ahead left = some .rightBracket then plain (suffixes (.member object key) left.tail)
        else .error ⟨.indexEnd, left⟩
      else
        match (ahead ts).bind trailingOp? with
        | none => .ok (object, ts)
        | some op => plain (suffixes (.unary op object) ts.tail) := by
  rcases ts with _ | ⟨_ | _ | _ | _ | _ | _, rest⟩ <;> rw [suffixes.eq_def] <;> try rfl
  rename_i s
  cases s <;> try rfl
  · simp only [ahead, List.tail_cons, ↓reduceIte]
    cases expression rest with
    | error m => rfl
    | ok key =>
      obtain ⟨k, left, shorter⟩ := key
      rcases left with _ | ⟨_ | _ | _ | _ | _ | _, after⟩ <;> try rfl
      rename_i s
      cases s <;> try rfl
      simp only [plain, Except.map, bind, Except.bind, List.tail_cons, ↓reduceIte]
      cases suffixes (.member object k) after <;> rfl
  · simp only [ahead, Option.bind_some, trailingOp?, List.tail_cons, plain]
    cases suffixes (.unary .postIncrement object) rest <;> rfl
  · simp only [ahead, Option.bind_some, trailingOp?, List.tail_cons, plain]
    cases suffixes (.unary .postDecrement object) rest <;> rfl

theorem plain_items (closing : Symbol) (expected : Expected) (ts : List Kind) :
    plainList (items closing expected ts) =
      if ahead ts = some closing then .ok ([], ts.tail)
      else plainList (itemsFrom closing expected ts) := by
  rcases ts with _ | ⟨_ | _ | _ | _ | _ | _, rest⟩ <;> rw [items.eq_def] <;> try rfl
  rename_i s
  simp only [ahead, List.tail_cons, Option.some.injEq]
  split <;> rfl

theorem plain_itemsFrom (closing : Symbol) (expected : Expected) (ts : List Kind) :
    plainList (itemsFrom closing expected ts) = (do
      let (first, rest) ← plain (expression ts)
      if ahead rest = some .comma then do
        let (more, left) ← plainList (itemsFrom closing expected rest.tail)
        .ok (first :: more, left)
      else if ahead rest = some closing then .ok ([first], rest.tail)
      else .error ⟨expected, rest⟩) := by
  rw [itemsFrom]
  cases expression ts with
  | error m => rfl
  | ok first =>
    obtain ⟨e, rest, shorter⟩ := first
    rcases rest with _ | ⟨_ | _ | _ | _ | _ | _, more⟩ <;> try rfl
    rename_i s
    simp only [plain, plainList, Except.map, bind, Except.bind, ahead, List.tail_cons,
      Option.some.injEq]
    by_cases comma : s = .comma
    · subst comma
      simp only [↓reduceIte]
      cases itemsFrom closing expected more <;> rfl
    · simp only [comma, ↓reduceIte]
      by_cases closed : s = closing
      · simp only [closed, ↓reduceIte]
      · simp only [closed, ↓reduceIte]

theorem plain_primary (ts : List Kind) :
    plain (primary ts) =
      match ts with
      | .number x :: rest => .ok (.number x, rest)
      | .text s :: rest => .ok (.text s, rest)
      | .bool b :: rest => .ok (.bool b, rest)
      | .global name :: rest => .ok (.globalVar name, rest)
      | .name name :: rest =>
        if ahead rest = some .leftParen then do
          let (args, left) ← plainList (items .rightParen .argumentsEnd rest.tail)
          .ok (.call name args, left)
        else .ok (.localVar name, rest)
      | .symbol s :: rest =>
        if s = .leftParen then do
          let (inner, left) ← plain (expression rest)
          if ahead left = some .rightParen then .ok (inner, left.tail) else .error ⟨.groupEnd, left⟩
        else if s = .leftBrace then do
          let (list, left) ← plainList (items .rightBrace .arrayEnd rest)
          .ok (.array list, left)
        else .error ⟨.expression, .symbol s :: rest⟩
      | [] => .error ⟨.expression, []⟩ := by
  rcases ts with _ | ⟨s | name | _ | _ | _ | _, rest⟩ <;> try (rw [primary.eq_def]; rfl)
  · cases s <;> rw [primary.eq_def] <;> try rfl
    · simp only [↓reduceIte]
      cases expression rest with
      | error m => rfl
      | ok inner =>
        obtain ⟨e, left, shorter⟩ := inner
        rcases left with _ | ⟨s | _ | _ | _ | _ | _, after⟩ <;> try rfl
        cases s <;> rfl
    · simp only [↓reduceIte]
      cases items .rightBrace .arrayEnd rest <;> rfl
  · rcases rest with _ | ⟨s | _ | _ | _ | _ | _, more⟩ <;> rw [primary.eq_def] <;> try rfl
    cases s <;> try rfl
    simp only [ahead, List.tail_cons, ↓reduceIte]
    cases items .rightParen .argumentsEnd more <;> rfl

theorem program_eq (ts : List Kind) :
    program ts =
      if ts = [] then .ok []
      else if ahead ts = some .semicolon then program ts.tail
      else (do
        let (first, rest) ← plain (expression ts)
        if rest = [] then .ok [first]
        else if ahead rest = some .semicolon then do
          let more ← program rest.tail
          .ok (first :: more)
        else .error ⟨.statementEnd, rest⟩) := by
  rcases ts with _ | ⟨k, rest⟩
  · rw [program]
    rfl
  by_cases skip : ahead (k :: rest) = some .semicolon
  · cases eq_of_ahead skip
    rw [program]
    simp [skip]
  · simp only [reduceCtorEq, skip, ↓reduceIte]
    rw [program.eq_def]
    split
    · contradiction
    · rename_i more start
      rw [start] at skip
      exact absurd rfl skip
    · cases expression (k :: rest) with
      | error m => rfl
      | ok first =>
        obtain ⟨e, left, shorter⟩ := first
        rcases left with _ | ⟨s | _ | _ | _ | _ | _, after⟩ <;> try rfl
        cases s <;> try rfl
        simp only [plain, Except.map, bind, Except.bind, List.tail_cons, ahead, ↓reduceIte]
        cases program after <;> rfl

end FlowScript.Parser
