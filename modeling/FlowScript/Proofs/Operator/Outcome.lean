import FlowScript.Proofs.Broadcast.Plan

/-!
What operators come to on values that are no arrays. The types of the operands decide on the type of
the result or on the error; only a division also looks at its right operand, which must not read as
zero. Main statement: operands of the same types have the same outcome in this sense, results are
never containers, dates or binaries, and errors say which operator met which types.
-/
namespace FlowScript.Operator

theorem spread_of_scalars (s : Store) (op : BinaryOp) {a b : Value} (left : a.valueType ≠ .array)
    (right : b.valueType ≠ .array) : spread s op a b = .ok none := by
  cases a <;> cases b <;> simp_all [spread, Value.valueType]

theorem binary_eq_scalar (s : Store) (op : BinaryOp) {a b : Value} (left : a.valueType ≠ .array)
    (right : b.valueType ≠ .array) : binary s op a b = (scalar s op a b).map (·, s) := by
  rw [binary, plan, Store.depthBound, planWithin_succ, planStep, spread_of_scalars s op left right]
  cases scalar s op a b <;> rfl

def converts : ValueType → Bool
  | .null | .bool | .number | .string => true
  | _ => false

def isRanked : ValueType → Bool
  | .null | .number | .string => true
  | _ => false

def sumType? : ValueType → ValueType → Option ValueType
  | .null, u => if converts u then some u else none
  | t, .null => if converts t then some t else none
  | .string, u => if converts u then some .string else none
  | t, .string => if converts t then some .string else none
  | .number, .number => some .number
  | _, _ => none

/-- The type of a difference, product, quotient or power: one operand has to be a number, and the
    other has to read as one. Two nulls have a difference. -/
def numericType? (op : BinaryOp) (t u : ValueType) : Option ValueType :=
  if isRanked t && isRanked u && (t == .number || u == .number) then some .number
  else if op = .subtract ∧ t = .null ∧ u = .null then some .null
  else none

def arithmeticType (op : BinaryOp) (t u : ValueType) : Except RunError ValueType :=
  match if op = .add then sumType? t u else numericType? op t u with
  | some result => .ok result
  | none => .error (.illegalOperation op t u)

/-- All values can be equal or different, but only some can be ordered. -/
def comparisonType (op : BinaryOp) (t u : ValueType) : Except RunError ValueType :=
  if op.isOrdering = false ∨ t = .date ∧ u = .date ∨ isRanked t ∧ isRanked u then .ok .bool
  else if converts t && converts u then .error (.booleanComparison op t u)
  else .error (.illegalOperation op t u)

def logicalType (op : BinaryOp) (t u : ValueType) : Except RunError ValueType :=
  if converts t && converts u then .ok .bool else .error (.illegalOperation op t u)

def resultType (op : BinaryOp) (t u : ValueType) : Except RunError ValueType :=
  match op.opClass with
  | .arithmetic => arithmeticType op t u
  | .comparison => comparisonType op t u
  | .logical => logicalType op t u

section Rules

variable (s : Store) {op : BinaryOp} {a b : Value}

def FailsAtZero {α : Type} (op : BinaryOp) (y : Float) (r : Except RunError α) : Prop :=
  op = .divide ∧ (y == 0.0) = true ∧ r = .error .divisionByZero

theorem calculate_type (x y : Float) (isArithmetic : op.opClass = .arithmetic) :
    (calculate op x y).map Value.valueType = .ok .number ∨ FailsAtZero op y (calculate op x y) := by
  cases op with
  | divide =>
    by_cases zero : (y == 0.0) = true
    · exact .inr ⟨rfl, zero, by rw [calculate, if_pos zero]⟩
    · left
      rw [calculate, if_neg zero]
      rfl
  | add | subtract | multiply | power => exact .inl rfl
  | _ => cases isArithmetic

theorem arithmetic_type (isArithmetic : op.opClass = .arithmetic) :
    (arithmetic s op a b).map Value.valueType = arithmeticType op a.valueType b.valueType ∨
      FailsAtZero op b.toNumber (arithmetic s op a b) := by
  have numeric := calculate_type a.toNumber b.toNumber isArithmetic
  by_cases sum : op = .add
  · subst sum
    left
    cases a <;> cases b <;> rfl
  · cases a <;> cases b
    case number.number | number.null | null.number | number.text | text.number =>
      simpa [arithmetic, arithmeticType, numericType?, isRanked, sum, Value.valueType,
        Value.toNumber] using numeric
    case null.null =>
      left
      cases op <;> rfl
    all_goals
      left
      simp [arithmetic, arithmeticType, numericType?, isRanked, sum, Value.valueType, illegal,
        Except.map]

theorem comparison_type (op : BinaryOp) (left : a.valueType ≠ .array)
    (right : b.valueType ≠ .array) :
    (comparison s op a b).map Value.valueType = comparisonType op a.valueType b.valueType := by
  cases ordering : op.isOrdering <;> cases a <;> cases b <;>
    simp_all [comparison, comparisonType, equalityOnly, compareByTruth, compareByNumber,
      compareByText, decideEquality, illegal, isRanked, converts, Value.valueType, Except.map]

theorem logical_type (op : BinaryOp) :
    (logical s op a b).map Value.valueType = logicalType op a.valueType b.valueType := by
  cases a <;> cases b <;> rfl

theorem logical_spelling {op' : BinaryOp} (same : isConjunction op = isConjunction op') :
    (∃ v, logical s op a b = .ok v ∧ logical s op' a b = .ok v) ∨
      logical s op a b = .error (illegal op a b) ∧ logical s op' a b = .error (illegal op' a b) := by
  cases a <;> cases b <;> simp [logical, connect, same]

end Rules

section Types

variable {op : BinaryOp} {t u r : ValueType} {e : RunError}

theorem converts_of_sumType? (found : sumType? t u = some r) : converts r = true := by
  cases t <;> cases u <;> cases found <;> rfl

theorem converts_of_numericType? (found : numericType? op t u = some r) : converts r = true := by
  unfold numericType? at found
  split at found
  · cases found
    rfl
  · split at found
    · cases found
      rfl
    · cases found

theorem resultType_eq_ok (found : resultType op t u = .ok r) :
    converts r = true ∧ (op.opClass ≠ .arithmetic → r = .bool) := by
  unfold resultType at found
  cases sort : op.opClass with
  | arithmetic =>
    simp only [sort, arithmeticType] at found
    split at found
    · rename_i given
      cases found
      split at given
      · exact ⟨converts_of_sumType? given, fun other => absurd rfl other⟩
      · exact ⟨converts_of_numericType? given, fun other => absurd rfl other⟩
    · cases found
  | comparison =>
    simp only [sort, comparisonType] at found
    split at found
    · cases found
      exact ⟨rfl, fun _ => rfl⟩
    · split at found <;> cases found
  | logical =>
    simp only [sort, logicalType] at found
    split at found
    · cases found
      exact ⟨rfl, fun _ => rfl⟩
    · cases found

theorem resultType_eq_error (found : resultType op t u = .error e) :
    e = .illegalOperation op t u ∨ e = .booleanComparison op t u := by
  unfold resultType at found
  split at found
  · unfold arithmeticType at found
    split at found
    · cases found
    · cases found
      exact .inl rfl
  · unfold comparisonType at found
    split at found
    · cases found
    · split at found
      · cases found
        exact .inr rfl
      · cases found
        exact .inl rfl
  · unfold logicalType at found
    split at found
    · cases found
    · cases found
      exact .inl rfl

end Types

section Outcomes

variable (s : Store) (op : BinaryOp) {a b : Value}

/-- The type of the result, or the error. -/
def outcomeType (r : Except RunError (Value × Store)) : Except RunError ValueType :=
  r.map (·.1.valueType)

/-- Both operators have the same result, or both are refused, each by its own name. -/
def SpelledAlike (s : Store) (a b : Value) (op op' : BinaryOp) : Prop :=
  (∃ r, binary s op a b = .ok r ∧ binary s op' a b = .ok r) ∨
    binary s op a b = .error (illegal op a b) ∧ binary s op' a b = .error (illegal op' a b)

variable (left : a.valueType ≠ .array) (right : b.valueType ≠ .array)

include left right

theorem outcomeType_binary :
    outcomeType (binary s op a b) = resultType op a.valueType b.valueType ∨
      FailsAtZero op b.toNumber (binary s op a b) := by
  have types : (scalar s op a b).map Value.valueType = resultType op a.valueType b.valueType ∨
      FailsAtZero op b.toNumber (scalar s op a b) := by
    unfold scalar resultType
    cases sort : op.opClass with
    | arithmetic => exact arithmetic_type s sort
    | comparison => exact .inl (comparison_type s op left right)
    | logical => exact .inl (logical_type s op)
  unfold outcomeType
  rw [binary_eq_scalar s op left right]
  rcases types with same | ⟨division, zero, failed⟩
  · left
    rw [← same]
    cases scalar s op a b <;> rfl
  · right
    rw [failed]
    exact ⟨division, zero, rfl⟩

theorem binary_eq_ok {v : Value} {t : Store} (done : binary s op a b = .ok (v, t)) :
    t = s ∧ converts v.valueType = true ∧ (op.opClass ≠ .arithmetic → v.valueType = .bool) := by
  have types := outcomeType_binary s op left right
  rw [done] at types
  rcases types with given | ⟨_, _, failed⟩
  · rw [binary_eq_scalar s op left right] at done
    cases answered : scalar s op a b with
    | error e =>
      rw [answered] at done
      cases done
    | ok w =>
      rw [answered] at done
      cases done
      exact ⟨rfl, resultType_eq_ok given.symm⟩
  · cases failed

theorem binary_eq_error {e : RunError} (failed : binary s op a b = .error e) :
    e = .illegalOperation op a.valueType b.valueType ∨
      e = .booleanComparison op a.valueType b.valueType ∨
      e = .divisionByZero ∧ op = .divide ∧ (b.toNumber == 0.0) = true := by
  have types := outcomeType_binary s op left right
  rw [failed] at types
  rcases types with given | ⟨division, zero, same⟩
  · rcases resultType_eq_error given.symm with refused | refused
    · exact .inl refused
    · exact .inr (.inl refused)
  · cases same
    exact .inr (.inr ⟨rfl, division, zero⟩)

omit op in
theorem spelledAlike_of_conjunction {op op' : BinaryOp} (isLogical : op.opClass = .logical)
    (isLogical' : op'.opClass = .logical) (same : isConjunction op = isConjunction op') :
    SpelledAlike s a b op op' := by
  unfold SpelledAlike
  rw [binary_eq_scalar s op left right, binary_eq_scalar s op' left right]
  unfold scalar
  simp only [isLogical, isLogical']
  rcases logical_spelling s same with ⟨v, first, second⟩ | ⟨first, second⟩
  · left
    rw [first, second]
    exact ⟨(v, s), rfl, rfl⟩
  · right
    rw [first, second]
    exact ⟨rfl, rfl⟩

end Outcomes

/-- Operators look at the types of their operands, arrays aside. On operands of the same types an
    operator gives results of one type, or the same error; only a division may fail for one of them,
    when its right operand reads as zero. A comparison or a logical operator answers with a boolean,
    and no operator with an array, a dictionary, a date or a binary. An error is a division by zero
    or names the operator and the two types. The spellings of a logical operator agree. -/
theorem types_decide_the_outcome (s s' : Store) (op : BinaryOp) {a b a' b' : Value}
    (left : a.valueType ≠ .array) (right : b.valueType ≠ .array)
    (left' : a'.valueType = a.valueType) (right' : b'.valueType = b.valueType) :
    (outcomeType (binary s op a b) = outcomeType (binary s' op a' b') ∨
      FailsAtZero op b.toNumber (binary s op a b) ∨
      FailsAtZero op b'.toNumber (binary s' op a' b')) ∧
    (∀ v t, binary s op a b = .ok (v, t) → t = s ∧
      (op.opClass ≠ .arithmetic → v.valueType = .bool) ∧
      v.valueType ∉ [.array, .dictionary, .date, .binary]) ∧
    (∀ e, binary s op a b = .error e →
      e = .illegalOperation op a.valueType b.valueType ∨
      e = .booleanComparison op a.valueType b.valueType ∨
      e = .divisionByZero ∧ op = .divide ∧ (b.toNumber == 0.0) = true) ∧
    SpelledAlike s a b .logicalAnd .and ∧ SpelledAlike s a b .logicalOr .or := by
  have first := outcomeType_binary s op left right
  have second := outcomeType_binary s' op (left' ▸ left) (right' ▸ right)
  rw [left', right'] at second
  constructor
  · rcases first with type | failed
    · rcases second with type' | failed'
      · exact .inl (type.trans type'.symm)
      · exact .inr (.inr failed')
    · exact .inr (.inl failed)
  constructor
  · intro v t done
    obtain ⟨kept, plain, truth⟩ := binary_eq_ok s op left right done
    have listed : v.valueType ∉ [.array, .dictionary, .date, .binary] := by
      cases v <;> simp_all [Value.valueType, converts]
    exact ⟨kept, truth, listed⟩
  constructor
  · intro e failed
    exact binary_eq_error s op left right failed
  constructor
  · exact spelledAlike_of_conjunction s left right rfl rfl rfl
  · exact spelledAlike_of_conjunction s left right rfl rfl rfl

theorem types_decide_the_outcome_division :
    (Value.text "6").valueType ≠ .array ∧ (Value.number 2.0).valueType ≠ .array ∧
      (Value.text "x").valueType = (Value.text "6").valueType ∧
      (Value.number 0.0).valueType = (Value.number 2.0).valueType ∧
      outcomeType (binary .empty .divide (.text "6") (.number 2.0)) = .ok .number ∧
      binary .empty .divide (.text "x") (.number 0.0) = .error .divisionByZero ∧
      (outcomeType (binary .empty .divide (.text "6") (.number 2.0)) =
          outcomeType (binary .empty .divide (.text "x") (.number 0.0)) ∨
        FailsAtZero .divide 2.0 (binary .empty .divide (.text "6") (.number 2.0)) ∨
        FailsAtZero .divide 0.0 (binary .empty .divide (.text "x") (.number 0.0))) := by
  have left : (Value.text "6").valueType ≠ .array := by decide
  have right : (Value.number 2.0).valueType ≠ .array := by decide
  have left' : (Value.text "x").valueType = (Value.text "6").valueType := rfl
  have right' : (Value.number 0.0).valueType = (Value.number 2.0).valueType := rfl
  exact ⟨left, right, left', right', rfl, rfl,
    (types_decide_the_outcome .empty .empty .divide left right left' right').1⟩

end FlowScript.Operator
