import FlowScript.Proofs.Parser.Cursor

/-!
How far the parser looks. Every part of it takes tokens from the front and decides by the first of
those that it leaves. Main statement: as long as that token stays, whatever stands after it may
change, and the parser does and says the same.
-/
namespace FlowScript.Parser

open Token (Kind)

variable {α β : Type}

def left : Except Mismatch (α × List Kind) → List Kind
  | .ok (_, rest) => rest
  | .error m => m.rest

def leaving (rest : List Kind) : Except Mismatch (α × List Kind) → Except Mismatch (α × List Kind)
  | .ok (a, _) => .ok (a, rest)
  | .error m => .error ⟨m.expected, rest⟩

/-- On these tokens, the part takes some from the front and answers the same whatever comes after
    the first that it leaves. -/
def LooksOneAhead (f : List Kind → Except Mismatch (α × List Kind)) (ts : List Kind) : Prop :=
  ∃ used, ts = used ++ left (f ts) ∧ ∀ k rest, left (f ts) = k :: rest →
    ∀ rest', f (used ++ k :: rest') = leaving (k :: rest') (f ts)

variable {ts : List Kind}

theorem looks_ok (a : α) : LooksOneAhead (fun us => .ok (a, us)) ts := by
  refine ⟨[], rfl, ?_⟩
  intro k rest _ rest'
  rfl

theorem looks_error (expected : Expected) :
    LooksOneAhead (fun us => (.error ⟨expected, us⟩ : Except Mismatch (α × List Kind))) ts := by
  refine ⟨[], rfl, ?_⟩
  intro k rest _ rest'
  rfl

theorem looks_first {f g : List Kind → Except Mismatch (α × List Kind)} {k : Kind}
    (same : ∀ us, f (k :: us) = g us) (later : LooksOneAhead g ts) : LooksOneAhead f (k :: ts) := by
  obtain ⟨used, eq, shift⟩ := later
  refine ⟨k :: used, ?_, ?_⟩
  · rw [same, List.cons_append, ← eq]
  · intro next rest found rest'
    rw [same] at found ⊢
    rw [List.cons_append, same, shift next rest found rest']

theorem looks_decided {f g : List Kind → Except Mismatch (α × List Kind)}
    (same : ∀ us, us.head? = ts.head? → f us = g us) (looks : LooksOneAhead g ts) :
    LooksOneAhead f ts := by
  obtain ⟨used, eq, shift⟩ := looks
  have here : f ts = g ts := same ts rfl
  refine ⟨used, by rw [here, ← eq], ?_⟩
  intro k rest found rest'
  rw [here] at found ⊢
  rw [← shift k rest found rest']
  apply same
  rw [eq, found]
  cases used <;> rfl

theorem looks_bind {x : List Kind → Except Mismatch (α × List Kind)}
    {g : α × List Kind → Except Mismatch (β × List Kind)} (first : LooksOneAhead x ts)
    (next : ∀ a rest, x ts = .ok (a, rest) → LooksOneAhead (fun us => g (a, us)) rest) :
    LooksOneAhead (fun us => x us >>= g) ts := by
  obtain ⟨used, eq, shift⟩ := first
  unfold LooksOneAhead
  dsimp only
  cases answer : x ts with
  | error m =>
    rw [answer] at eq shift
    refine ⟨used, eq, ?_⟩
    intro k rest found rest'
    rw [shift k rest found rest']
    rfl
  | ok p =>
    obtain ⟨a, middle⟩ := p
    rw [answer] at eq shift
    obtain ⟨used', eq', shift'⟩ := next a middle answer
    refine ⟨used ++ used', ?_, ?_⟩
    · rw [List.append_assoc]
      exact eq' ▸ eq
    · intro k rest found rest'
      rw [show left (g (a, middle)) = k :: rest from found] at eq'
      -- the first part leaves the tokens that the second one takes, and those stay
      have stays : x (used ++ (used' ++ k :: rest')) = .ok (a, used' ++ k :: rest') := by
        cases used' with
        | nil => exact shift k rest eq' rest'
        | cons c taken => exact shift c _ eq' (taken ++ k :: rest')
      rw [List.append_assoc, stays]
      exact shift' k rest found rest'

theorem ahead_of_head? {us : List Kind} (same : us.head? = ts.head?) : ahead us = ahead ts := by
  cases us with
  | nil =>
    cases ts with
    | nil => rfl
    | cons => cases same
  | cons k us =>
    cases ts with
    | nil => cases same
    | cons =>
      cases same
      cases k <;> rfl

theorem looks_find {γ : Type} {find : Symbol → Option γ}
    {f h : List Kind → Except Mismatch (α × List Kind)}
    {g : γ → List Kind → Except Mismatch (α × List Kind)}
    (taken : ∀ us c, (ahead us).bind find = some c → f us = g c us.tail)
    (passed : ∀ us, (ahead us).bind find = none → f us = h us)
    (yes : ∀ c, (ahead ts).bind find = some c → LooksOneAhead (g c) ts.tail)
    (no : LooksOneAhead h ts) : LooksOneAhead f ts := by
  cases found : (ahead ts).bind find with
  | none =>
    refine looks_decided ?_ no
    intro us same
    exact passed us (by rw [ahead_of_head? same, found])
  | some c =>
    obtain ⟨s, next, listed⟩ := Option.bind_eq_some_iff.mp found
    rw [eq_of_ahead next]
    refine looks_first ?_ (yes c found)
    intro us
    exact taken (.symbol s :: us) c listed

theorem looks_symbol {s : Symbol} {g h : List Kind → Except Mismatch (α × List Kind)}
    (yes : ahead ts = some s → LooksOneAhead g ts.tail) (no : LooksOneAhead h ts) :
    LooksOneAhead (fun us => if ahead us = some s then g us.tail else h us) ts := by
  by_cases next : ahead ts = some s
  · rw [eq_of_ahead next]
    refine looks_first ?_ (yes next)
    intro us
    simp only [ahead, ↓reduceIte, List.tail_cons]
  · refine looks_decided ?_ no
    intro us same
    rw [ahead_of_head? same, if_neg next]

abbrev LooksAt (f : (ts : List Kind) → Except Mismatch (Reading ts.length)) (ts : List Kind) :
    Prop :=
  LooksOneAhead (fun us => plain (f us)) ts

theorem chain_looks {size : Nat} {level : Level} {tighter : List Level}
    (below : ∀ us : List Kind, us.length ≤ size → LooksAt (binary tighter) us)
    (lhs : Expr) (small : ts.length ≤ size) :
    LooksOneAhead (fun us => plain (chain level tighter lhs us)) ts := by
  induction h : ts.length using Nat.strongRecOn generalizing lhs ts with
  | ind n ih =>
    have goesOn (op : BinaryOp) (found : ((ahead ts).bind fun s => level.lookup s) = some op) :
        LooksOneAhead (fun us => plain (binary tighter us) >>= fun p =>
          plain (chain level tighter (.binary lhs op p.1) p.2)) ts.tail := by
      obtain ⟨s, next, _⟩ := Option.bind_eq_some_iff.mp found
      have shorter := length_of_ahead next
      refine looks_bind (below ts.tail (by omega)) ?_
      intro rhs rest read
      have fewer := shorter_of_plain read
      exact ih rest.length (by omega) (.binary lhs op rhs) (by omega) rfl
    rw [funext (plain_chain level tighter lhs)]
    refine looks_find ?_ ?_ goesOn (looks_ok lhs)
    · intro us op found
      simp only [found]
    · intro us found
      simp only [found]

section Below

variable {size : Nat} (inner : ∀ us : List Kind, us.length < size → LooksAt expression us)

include inner

theorem itemsFrom_looks (closing : Symbol) (expected : Expected) (small : ts.length < size) :
    LooksOneAhead (fun us => plainList (itemsFrom closing expected us)) ts := by
  induction h : ts.length using Nat.strongRecOn generalizing ts with
  | ind n ih =>
    rw [funext (plain_itemsFrom closing expected)]
    refine looks_bind (inner ts small) ?_
    intro first rest read
    have fewer := shorter_of_plain read
    have another (comma : ahead rest = some .comma) :
        LooksOneAhead (fun us => plainList (itemsFrom closing expected us) >>= fun p =>
          .ok (first :: p.1, p.2)) rest.tail := by
      have shorter := length_of_ahead comma
      refine looks_bind (ih rest.tail.length (by omega) (by omega) rfl) ?_
      intro more rest' _
      exact looks_ok (first :: more)
    exact looks_symbol another (looks_symbol (fun _ => looks_ok [first]) (looks_error expected))

theorem items_looks (closing : Symbol) (expected : Expected) (small : ts.length < size) :
    LooksOneAhead (fun us => plainList (items closing expected us)) ts := by
  rw [funext (plain_items closing expected)]
  exact looks_symbol (fun _ => looks_ok []) (itemsFrom_looks inner closing expected small)

theorem primary_looks (small : ts.length ≤ size) : LooksAt primary ts := by
  unfold LooksAt
  rw [funext plain_primary]
  cases ts with
  | nil =>
    refine looks_decided (g := fun us => .error ⟨.expression, us⟩) ?_ (looks_error .expression)
    intro us same
    cases us with
    | nil => rfl
    | cons => cases same
  | cons k rest =>
    have fewer : rest.length < size := small
    cases k with
    | number x => exact looks_first (fun _ => rfl) (looks_ok (Expr.number x))
    | text s => exact looks_first (fun _ => rfl) (looks_ok (Expr.text s))
    | bool b => exact looks_first (fun _ => rfl) (looks_ok (Expr.bool b))
    | global name => exact looks_first (fun _ => rfl) (looks_ok (Expr.globalVar name))
    | name name =>
      have called (call : ahead rest = some .leftParen) :
          LooksOneAhead (fun us => plainList (items .rightParen .argumentsEnd us) >>= fun p =>
            .ok (Expr.call name p.1, p.2)) rest.tail := by
        have shorter := length_of_ahead call
        refine looks_bind (items_looks inner .rightParen .argumentsEnd (by omega)) ?_
        intro args rest' _
        exact looks_ok (Expr.call name args)
      exact looks_first (fun _ => rfl) (looks_symbol called (looks_ok (Expr.localVar name)))
    | symbol s =>
      by_cases group : s = .leftParen
      · subst group
        refine looks_first (fun _ => rfl) (looks_bind (inner rest fewer) ?_)
        intro e rest' _
        exact looks_symbol (fun _ => looks_ok e) (looks_error .groupEnd)
      by_cases brace : s = .leftBrace
      · subst brace
        refine looks_first (fun _ => rfl) (looks_bind (items_looks inner _ _ fewer) ?_)
        intro list rest' _
        exact looks_ok (Expr.array list)
      · refine looks_decided (g := fun us => .error ⟨.expression, us⟩) ?_ (looks_error .expression)
        intro us same
        cases us with
        | nil => cases same
        | cons k us =>
          cases same
          simp only [group, brace, ↓reduceIte]

theorem suffixes_looks (object : Expr) (small : ts.length ≤ size) :
    LooksOneAhead (fun us => plain (suffixes object us)) ts := by
  induction h : ts.length using Nat.strongRecOn generalizing object ts with
  | ind n ih =>
    have indexed (index : ahead ts = some .leftBracket) :
        LooksOneAhead (fun us => plain (expression us) >>= fun p =>
          if ahead p.2 = some .rightBracket then plain (suffixes (.member object p.1) p.2.tail)
          else .error ⟨.indexEnd, p.2⟩) ts.tail := by
      have shorter := length_of_ahead index
      refine looks_bind (inner ts.tail (by omega)) ?_
      intro key rest read
      have fewer := shorter_of_plain read
      have goesOn (closed : ahead rest = some .rightBracket) :
          LooksOneAhead (fun us => plain (suffixes (.member object key) us)) rest.tail := by
        have shorter' := length_of_ahead closed
        exact ih rest.tail.length (by omega) (.member object key) (by omega) rfl
      exact looks_symbol goesOn (looks_error .indexEnd)
    have updated (op : UnaryOp) (found : (ahead ts).bind trailingOp? = some op) :
        LooksOneAhead (fun us => plain (suffixes (.unary op object) us)) ts.tail := by
      obtain ⟨s, next, _⟩ := Option.bind_eq_some_iff.mp found
      have shorter := length_of_ahead next
      exact ih ts.tail.length (by omega) (.unary op object) (by omega) rfl
    rw [funext (plain_suffixes object)]
    refine looks_symbol indexed (looks_find ?_ ?_ updated (looks_ok object))
    · intro us op found
      simp only [found]
    · intro us found
      simp only [found]

theorem suffixed_looks (small : ts.length ≤ size) : LooksAt suffixed ts := by
  unfold LooksAt
  rw [funext plain_suffixed]
  refine looks_bind (primary_looks inner small) ?_
  intro first rest read
  have fewer := shorter_of_plain read
  exact suffixes_looks inner first (by omega)

theorem unary_looks (small : ts.length ≤ size) : LooksAt unary ts := by
  induction h : ts.length using Nat.strongRecOn generalizing ts with
  | ind n ih =>
    have leading (op : UnaryOp) (found : (ahead ts).bind leadingOp? = some op) :
        LooksOneAhead (fun us => plain (unary us) >>= fun p =>
          .ok (Expr.unary op p.1, p.2)) ts.tail := by
      obtain ⟨s, next, _⟩ := Option.bind_eq_some_iff.mp found
      have shorter := length_of_ahead next
      refine looks_bind (ih ts.tail.length (by omega) (by omega) rfl) ?_
      intro operand rest _
      exact looks_ok (Expr.unary op operand)
    unfold LooksAt
    rw [funext plain_unary]
    refine looks_find ?_ ?_ leading (suffixed_looks inner small)
    · intro us op found
      simp only [found]
    · intro us found
      simp only [found]

theorem power_looks (small : ts.length ≤ size) : LooksAt power ts := by
  induction h : ts.length using Nat.strongRecOn generalizing ts with
  | ind n ih =>
    unfold LooksAt
    rw [funext plain_power]
    refine looks_bind (unary_looks inner small) ?_
    intro base rest read
    have fewer := shorter_of_plain read
    have raised (caret : ahead rest = some .caret) :
        LooksOneAhead (fun us => plain (power us) >>= fun p =>
          .ok (Expr.binary base .power p.1, p.2)) rest.tail := by
      have shorter := length_of_ahead caret
      refine looks_bind (ih rest.tail.length (by omega) (by omega) rfl) ?_
      intro exponent rest' _
      exact looks_ok (Expr.binary base .power exponent)
    exact looks_symbol raised (looks_ok base)

theorem binary_looks (levels : List Level) (small : ts.length ≤ size) :
    LooksAt (binary levels) ts := by
  induction levels generalizing ts with
  | nil =>
    unfold LooksAt
    rw [funext plain_binary_nil]
    exact power_looks inner small
  | cons level tighter ih =>
    unfold LooksAt
    rw [funext (plain_binary_cons level tighter)]
    refine looks_bind (ih small) ?_
    intro first rest read
    have fewer := shorter_of_plain read
    exact chain_looks (fun us => ih) first (by omega)

end Below

theorem expression_looks (ts : List Kind) : LooksAt expression ts := by
  induction h : ts.length using Nat.strongRecOn generalizing ts with
  | ind n ih =>
    have inner : ∀ us : List Kind, us.length < ts.length → LooksAt expression us :=
      fun us fewer => ih us.length (by omega) us rfl
    unfold LooksAt
    rw [funext plain_expression]
    refine looks_bind (binary_looks inner precedence (Nat.le_refl _)) ?_
    intro target rest read
    have fewer := shorter_of_plain read
    have assigns (op : AssignOp) (found : (ahead rest).bind assignOp? = some op) :
        LooksOneAhead (fun us => plain (expression us) >>= fun p =>
          .ok (Expr.assign target op p.1, p.2)) rest.tail := by
      obtain ⟨s, next, _⟩ := Option.bind_eq_some_iff.mp found
      have shorter := length_of_ahead next
      refine looks_bind (inner rest.tail (by omega)) ?_
      intro value rest' _
      exact looks_ok (Expr.assign target op value)
    refine looks_find ?_ ?_ assigns (looks_ok target)
    · intro us op found
      simp only [found]
    · intro us found
      simp only [found]

open Cursor (whole whole_bind)

theorem whole_program_skip (us : List Kind) :
    whole (program (.symbol .semicolon :: us)) = whole (program us) := by
  rw [program_eq]
  rfl

theorem program_looks (ts : List Kind) : LooksOneAhead (fun us => whole (program us)) ts := by
  induction h : ts.length using Nat.strongRecOn generalizing ts with
  | ind n ih =>
    by_cases none : ts = []
    · subst none
      refine looks_decided (g := fun us => .ok ([], us)) ?_ (looks_ok [])
      intro us same
      rw [List.head?_eq_none_iff.mp same, program_eq]
      rfl
    by_cases skip : ahead ts = some .semicolon
    · have shorter := length_of_ahead skip
      rw [eq_of_ahead skip]
      exact looks_first whole_program_skip (ih ts.tail.length (by omega) ts.tail rfl)
    refine looks_decided (g := fun us => plain (expression us) >>= fun p => whole
      (if p.2 = [] then .ok [p.1]
      else if ahead p.2 = some .semicolon then do
        let more ← program p.2.tail
        .ok (p.1 :: more)
      else .error ⟨.statementEnd, p.2⟩)) ?_ (looks_bind (expression_looks ts) ?_)
    · intro us same
      have some_token : us ≠ [] := by
        rintro rfl
        exact none (List.head?_eq_none_iff.mp same.symm)
      rw [program_eq, if_neg some_token, if_neg (by rwa [ahead_of_head? same]), whole_bind]
    -- after an expression, only a semicolon or the end may come
    intro first rest read
    have fewer := shorter_of_plain read
    by_cases last : rest = []
    · subst last
      refine looks_decided (g := fun us => .ok ([first], us)) ?_ (looks_ok [first])
      intro us same
      rw [List.head?_eq_none_iff.mp same]
      rfl
    by_cases stop : ahead rest = some .semicolon
    · have shorter := length_of_ahead stop
      rw [eq_of_ahead stop]
      refine looks_first (g := fun us => whole (program us) >>= fun p => .ok (first :: p.1, p.2)) ?_
        (looks_bind (ih rest.tail.length (by omega) rest.tail rfl) ?_)
      · intro us
        simp only [reduceCtorEq, ↓reduceIte, ahead, List.tail_cons]
        cases program us <;> rfl
      · intro more rest' _
        exact looks_ok (first :: more)
    · refine looks_decided (g := fun us => .error ⟨.statementEnd, us⟩) ?_ (looks_error .statementEnd)
      intro us same
      have some_token : us ≠ [] := by
        rintro rfl
        exact last (List.head?_eq_none_iff.mp same.symm)
      have other : ahead us ≠ some .semicolon := by rwa [ahead_of_head? same]
      simp only [some_token, other, ↓reduceIte]
      rfl

/-- A program that fails before some token fails in the same way whatever comes after the token. -/
theorem program_fails_alike {ts : List Kind} {m : Mismatch} (failed : program ts = .error m) :
    ∃ used, ts = used ++ m.rest ∧ ∀ k rest, m.rest = k :: rest →
      ∀ rest', program (used ++ k :: rest') = .error ⟨m.expected, k :: rest'⟩ := by
  obtain ⟨used, eq, shift⟩ := program_looks ts
  dsimp only at eq shift
  rw [failed] at eq shift
  refine ⟨used, eq, ?_⟩
  intro k rest found rest'
  have alike := shift k rest found rest'
  cases answer : program (used ++ k :: rest') with
  | ok p =>
    rw [answer] at alike
    cases alike
  | error other =>
    rw [answer] at alike
    exact congrArg Except.error (Except.error.inj alike)

end FlowScript.Parser
