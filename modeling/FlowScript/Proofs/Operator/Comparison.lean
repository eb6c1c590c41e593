import FlowScript.Proofs.Operator.Outcome

/-!
Comparisons of two values that are no arrays. Each pair of values has one verdict, from which all
six comparisons are read off: an order, or the refusal of one, and whether the two are equal. Main
statement: the comparisons agree with each other and with those of the operands in the other order,
except that dates of different precision may be neither equal nor one before the other.
-/
namespace FlowScript

namespace Number

open Float.Model UnpackedFloat

theorem unpacked_compare_swap (x y : UnpackedFloat) :
    y.compare x = (x.compare y).map Ordering.swap := by
  cases x with
  | notANumber => cases y <;> rfl
  | infinity s =>
    cases s <;> cases y with
    | infinity t | zero t | finite t => cases t <;> rfl
    | notANumber => rfl
  | zero s =>
    cases y with
    | infinity t | finite t => cases t <;> rfl
    | _ => rfl
  | finite s m e =>
    cases y with
    | finite t n f =>
      have sizes : (compare f e).then (compare n m) = ((compare e f).then (compare m n)).swap := by
        rw [Ordering.swap_then, Int.compare_swap, Nat.compare_swap]
      cases s <;> cases t
      · exact congrArg (fun order => some order.swap) sizes
      · rfl
      · rfl
      · exact congrArg some sizes
    | infinity t => cases s <;> cases t <;> rfl
    | _ => cases s <;> rfl

end Number

namespace Operator

theorem compareNumbers_eq (x y : Float) :
    compareNumbers x y = x.toModel.unpack.compare y.toModel.unpack := by
  have less (x y : Float) : x < y ↔ x.toModel.unpack.compare y.toModel.unpack = some .lt := by
    change decide ((x.toModel.unpack.compare y.toModel.unpack == some .lt) = true) = true ↔ _
    simp
  have equal : (x == y) = true ↔ x.toModel.unpack.compare y.toModel.unpack = some .eq := by
    change (x.toModel.unpack.compare y.toModel.unpack == some .eq) = true ↔ _
    simp
  unfold compareNumbers
  simp only [less, equal, Number.unpacked_compare_swap x.toModel.unpack y.toModel.unpack]
  cases x.toModel.unpack.compare y.toModel.unpack with
  | none => rfl
  | some order => cases order <;> rfl

theorem compareNumbers_swap (x y : Float) :
    compareNumbers y x = (compareNumbers x y).map Ordering.swap := by
  rw [compareNumbers_eq, compareNumbers_eq]
  exact Number.unpacked_compare_swap _ _

theorem compareTexts_swap (x y : String) : compareTexts y x = (compareTexts x y).swap := by
  unfold compareTexts
  by_cases less : x < y
  · rw [if_neg (String.lt_asymm less), if_pos less, if_pos less]
    rfl
  · by_cases more : y < x
    · rw [if_pos more, if_neg less, if_pos more]
      rfl
    · rw [if_neg more, if_neg less, if_neg less, if_neg more]
      rfl

end Operator

namespace Moment

theorem compareKeys_swap (as bs : List Int) : compareKeys bs as = (compareKeys as bs).swap := by
  induction as generalizing bs with
  | nil => cases bs <;> rfl
  | cons a as ih =>
    cases bs with
    | nil => rfl
    | cons b bs => rw [compareKeys, compareKeys, Ordering.swap_then, ih bs, Int.compare_swap]

theorem compareKeys_eq_eq {as bs : List Int} : compareKeys as bs = .eq ↔ as = bs := by
  induction as generalizing bs with
  | nil => cases bs <;> simp [compareKeys]
  | cons a as ih =>
    cases bs with
    | nil => simp [compareKeys]
    | cons b bs => simp [compareKeys, Ordering.then_eq_eq, ih]

theorem compare_eq_eq {m n : Moment} : m.compare n = .eq ↔ m = n := by
  rw [compare, compareKeys_eq_eq]
  constructor
  · intro same
    obtain ⟨⟨year, month, day⟩, second, nano⟩ := m
    obtain ⟨⟨year', month', day'⟩, second', nano'⟩ := n
    simp only [key, List.cons.injEq] at same
    obtain ⟨rfl, months, days, seconds, nanos, _⟩ := same
    obtain rfl := Int.ofNat_inj.mp months
    obtain rfl := Int.ofNat_inj.mp days
    obtain rfl := Int.ofNat_inj.mp seconds
    obtain rfl := Int.ofNat_inj.mp nanos
    rfl
  · exact congrArg key

end Moment

namespace Operator

/-- What the comparisons of two values rest on. -/
inductive Verdict where
  | ordered (order : Option Ordering)
  | dated (order : Ordering) (equal : Bool)
  | unordered (error : BinaryOp → ValueType → ValueType → RunError) (equal : Bool)

def Verdict.swap : Verdict → Verdict
  | ordered order => ordered (order.map Ordering.swap)
  | dated order equal => dated order.swap equal
  | unordered error equal => unordered error equal

def Verdict.answer (op : BinaryOp) (a b : Value) : Verdict → Except RunError Value
  | ordered order => .ok (.bool (decideOrder op order))
  | dated order equal =>
    if op.isOrdering then .ok (.bool (decideOrder op (some order)))
    else .ok (decideEquality op equal)
  | unordered error equal =>
    if op.isOrdering then .error (error op a.valueType b.valueType)
    else .ok (decideEquality op equal)

def opposite : BinaryOp → BinaryOp
  | .less => .greater
  | .greater => .less
  | .lessEqual => .greaterEqual
  | .greaterEqual => .lessEqual
  | op => op

theorem decideOrder_opposite (op : BinaryOp) (order : Option Ordering) :
    decideOrder (opposite op) (order.map Ordering.swap) = decideOrder op order := by
  cases order with
  | none => cases op <;> rfl
  | some order => cases order <;> cases op <;> rfl

theorem decideOrder_notEqual (order : Option Ordering) :
    decideOrder .notEqual order = !decideOrder .equal order := by
  cases order with
  | none => rfl
  | some order => cases order <;> rfl

theorem decideOrder_orEqual (order : Option Ordering) :
    decideOrder .lessEqual order = (decideOrder .less order || decideOrder .equal order) ∧
      decideOrder .greaterEqual order =
        (decideOrder .greater order || decideOrder .equal order) := by
  cases order with
  | none => exact ⟨rfl, rfl⟩
  | some order => cases order <;> exact ⟨rfl, rfl⟩

theorem opClass_of_isOrdering {op : BinaryOp} (ordering : op.isOrdering = true) :
    op.opClass = .comparison := by
  cases op <;> first | rfl | cases ordering

theorem isOrdering_opposite (op : BinaryOp) : (opposite op).isOrdering = op.isOrdering := by
  cases op <;> rfl

theorem opClass_opposite (op : BinaryOp) : (opposite op).opClass = op.opClass := by
  cases op <;> rfl

theorem decideEquality_opposite (op : BinaryOp) (equal : Bool) :
    decideEquality (opposite op) equal = decideEquality op equal := by
  cases op <;> rfl

theorem Verdict.answer_swap {v : Verdict} {op : BinaryOp} {a b r : Value}
    (answered : v.answer op a b = .ok r) : v.swap.answer (opposite op) b a = .ok r := by
  cases v with
  | ordered order => rwa [swap, answer, decideOrder_opposite]
  | dated order equal =>
    have turned := decideOrder_opposite op (some order)
    rw [Option.map_some] at turned
    rwa [swap, answer, isOrdering_opposite, decideEquality_opposite, turned]
  | unordered error equal =>
    rw [answer] at answered
    rw [swap, answer, isOrdering_opposite, decideEquality_opposite]
    split at answered
    · cases answered
    · rwa [if_neg ‹_›]

def verdict (s : Store) (a b : Value) : Verdict :=
  match a, b with
  | .dictionary _, _ | _, .dictionary _ =>
    .unordered .illegalOperation (a.sameContainer b || s.render a == s.render b)
  | .null, .null => .ordered none
  | .number _, .number _ | .number _, .text _ | .text _, .number _
  | .null, .number _ | .number _, .null => .ordered (compareNumbers a.toNumber b.toNumber)
  | .text _, .text _ | .null, .text _ | .text _, .null =>
    .ordered (some (compareTexts (s.render a) (s.render b)))
  | .bool _, .bool _ | .bool _, .text _ | .text _, .bool _ | .bool _, .number _
  | .number _, .bool _ | .null, .bool _ | .bool _, .null =>
    .unordered .booleanComparison (s.toBool a == s.toBool b)
  | .date x, .date y => .dated (x.compare y) (x == y)
  | .binary x, .binary y => .unordered .illegalOperation (x == y)
  | _, _ => .unordered .illegalOperation false

theorem comparison_eq (s : Store) (op : BinaryOp) (a b : Value) :
    comparison s op a b = (verdict s a b).answer op a b := by
  cases a <;> cases b
  case null.null => cases op <;> rfl
  all_goals rfl

theorem sameContainer_comm (a b : Value) : a.sameContainer b = b.sameContainer a := by
  cases a <;> cases b <;> first | rfl | exact Bool.beq_comm

theorem verdict_swap (s : Store) (a b : Value) : verdict s b a = (verdict s a b).swap := by
  have contents : (b.sameContainer a || s.render b == s.render a) =
      (a.sameContainer b || s.render a == s.render b) := by
    rw [sameContainer_comm, Bool.beq_comm]
  have numbers := compareNumbers_swap a.toNumber b.toNumber
  have texts := compareTexts_swap (s.render a) (s.render b)
  have truths : (s.toBool b == s.toBool a) = (s.toBool a == s.toBool b) := Bool.beq_comm
  cases a <;> cases b
  case date.date x y =>
    simp only [verdict, Verdict.swap, Date.compare, Moment.compare,
      Moment.compareKeys_swap x.moment.key]
    rw [Bool.beq_comm]
  case binary.binary x y => exact congrArg _ Bool.beq_comm
  case number.number | number.text | text.number | null.number | number.null =>
    exact congrArg Verdict.ordered numbers
  case text.text | null.text | text.null =>
    exact congrArg (Verdict.ordered ∘ some) texts
  case bool.bool | bool.text | text.bool | bool.number | number.bool | null.bool | bool.null =>
    exact congrArg (Verdict.unordered _) truths
  case dictionary.null | dictionary.bool | dictionary.number | dictionary.text |
      dictionary.binary | dictionary.date | dictionary.array | dictionary.dictionary |
      null.dictionary | bool.dictionary | number.dictionary | text.dictionary |
      binary.dictionary | date.dictionary | array.dictionary =>
    exact congrArg (Verdict.unordered _) contents
  all_goals rfl

section Comparisons

variable (s : Store) {a b : Value}

/-- The comparison succeeds, with this answer. -/
def Answers (s : Store) (op : BinaryOp) (a b : Value) (answer : Bool) : Prop :=
  binary s op a b = .ok (.bool answer, s)

/-- The comparison succeeds with this answer, and so does the opposite one on the swapped
    operands. -/
def AnswersBothWays (s : Store) (op : BinaryOp) (a b : Value) (answer : Bool) : Prop :=
  Answers s op a b answer ∧ Answers s (opposite op) b a answer

/-- No ordering succeeds, in either order of the operands, and all errors are of one kind. -/
def Unordered (s : Store) (a b : Value) : Prop :=
  ∃ refusal ∈ [RunError.illegalOperation, RunError.booleanComparison],
    ∀ op : BinaryOp, op.isOrdering = true →
      binary s op a b = .error (refusal op a.valueType b.valueType) ∧
        binary s op b a = .error (refusal op b.valueType a.valueType)

/-- Two dates at the same moment, of which one has milliseconds. -/
def OtherPrecision (a b : Value) : Prop :=
  ∃ x y : Date, a = .date x ∧ b = .date y ∧ x.moment = y.moment ∧ x.millis ≠ y.millis

theorem verdict_eq_dated {order : Ordering} {equal : Bool}
    (found : verdict s a b = .dated order equal) :
    ∃ x y : Date, a = .date x ∧ b = .date y ∧ order = x.compare y ∧ equal = (x == y) := by
  unfold verdict at found
  split at found <;> cases found
  exact ⟨_, _, rfl, rfl, rfl, rfl⟩

theorem verdict_eq_unordered {equal : Bool} {error : BinaryOp → ValueType → ValueType → RunError}
    (found : verdict s a b = .unordered error equal) :
    error ∈ [RunError.illegalOperation, RunError.booleanComparison] := by
  unfold verdict at found
  split at found <;> cases found <;> simp

theorem otherPrecision_dates {x y : Date} :
    OtherPrecision (.date x) (.date y) ↔ x.compare y = .eq ∧ x ≠ y := by
  constructor
  · rintro ⟨_, _, ⟨⟩, ⟨⟩, moment, millis⟩
    exact ⟨Moment.compare_eq_eq.mpr moment, fun same => millis (congrArg Date.millis same)⟩
  · intro ⟨order, different⟩
    have moment := Moment.compare_eq_eq.mp order
    refine ⟨x, y, rfl, rfl, moment, fun millis => different ?_⟩
    cases x
    cases y
    simp_all

theorem verdict_of_otherPrecision (dates : OtherPrecision a b) :
    verdict s a b = .dated .eq false := by
  have ⟨x, y, left, right, _⟩ := dates
  subst left right
  obtain ⟨order, different⟩ := otherPrecision_dates.mp dates
  rw [verdict, order, beq_false_of_ne different]

theorem dated_coherent {order : Ordering} {equal : Bool}
    (found : verdict s a b = .dated order equal) (alike : ¬ OtherPrecision a b) :
    decideOrder .lessEqual (some order) = (decideOrder .less (some order) || equal) ∧
      decideOrder .greaterEqual (some order) = (decideOrder .greater (some order) || equal) := by
  obtain ⟨x, y, rfl, rfl, rfl, rfl⟩ := verdict_eq_dated s found
  have same : (x == y) = (x.compare y == .eq) := by
    rw [Bool.eq_iff_iff, beq_iff_eq, beq_iff_eq]
    constructor
    · intro same
      exact Moment.compare_eq_eq.mpr (congrArg Date.moment same)
    · intro order
      refine Decidable.byContradiction fun different => ?_
      exact alike (otherPrecision_dates.mpr ⟨order, different⟩)
  rw [same]
  exact decideOrder_orEqual (some (x.compare y))

variable (left : a.valueType ≠ .array) (right : b.valueType ≠ .array)

include left right

theorem binary_comparison {op : BinaryOp} (isComparison : op.opClass = .comparison) :
    binary s op a b = ((verdict s a b).answer op a b).map (·, s) := by
  rw [binary_eq_scalar s op left right, scalar, isComparison, ← comparison_eq]

theorem answersBothWays {v : Verdict} (found : verdict s a b = v) {op : BinaryOp} {r : Bool}
    (isComparison : op.opClass = .comparison) (answered : v.answer op a b = .ok (.bool r)) :
    AnswersBothWays s op a b r := by
  constructor
  · rw [Answers, binary_comparison s left right isComparison, found, answered]
    rfl
  · have isComparison' := (opClass_opposite op).trans isComparison
    rw [Answers, binary_comparison s right left isComparison', verdict_swap, found,
      Verdict.answer_swap answered]
    rfl

theorem unordered_of_verdict {equal : Bool} {error : BinaryOp → ValueType → ValueType → RunError}
    (found : verdict s a b = .unordered error equal) : Unordered s a b := by
  refine ⟨error, verdict_eq_unordered s found, fun op ordering => ?_⟩
  have isComparison := opClass_of_isOrdering ordering
  rw [binary_comparison s left right isComparison, binary_comparison s right left isComparison,
    verdict_swap s a b, found]
  simp only [Verdict.swap, Verdict.answer, ordering, if_true]
  exact ⟨rfl, rfl⟩

end Comparisons

/-- The comparisons of two values that are no arrays are coherent. Equality does not depend on the
    order of the operands and `!=` is its negation. Either all orderings fail, in both orders of the
    operands and for the same reason, or they all succeed and turn around with the operands. Then
    `<=` and `>=` are `<` or `==` and `>` or `==`, except for two dates at the same moment that
    differ in precision: of those exactly `<=`, `>=` and `!=` hold. -/
theorem comparisons_agree (s : Store) {a b : Value} (left : a.valueType ≠ .array)
    (right : b.valueType ≠ .array) :
    ∃ equal, AnswersBothWays s .equal a b equal ∧ AnswersBothWays s .notEqual a b (!equal) ∧
      (Unordered s a b ∧ ¬ OtherPrecision a b ∨ ∃ less greater lessEqual greaterEqual,
        AnswersBothWays s .less a b less ∧ AnswersBothWays s .greater a b greater ∧
        AnswersBothWays s .lessEqual a b lessEqual ∧
        AnswersBothWays s .greaterEqual a b greaterEqual ∧
        (¬ OtherPrecision a b →
          lessEqual = (less || equal) ∧ greaterEqual = (greater || equal)) ∧
        (OtherPrecision a b →
          less = false ∧ greater = false ∧ lessEqual = true ∧ greaterEqual = true ∧
            equal = false)) := by
  have dated (dates : OtherPrecision a b) := verdict_of_otherPrecision s dates
  cases found : verdict s a b with
  | ordered order =>
    have both (op : BinaryOp) (isComparison : op.opClass = .comparison) :
        AnswersBothWays s op a b (decideOrder op order) :=
      answersBothWays s left right found isComparison rfl
    have negated := decideOrder_notEqual order
    refine ⟨_, both .equal rfl, negated ▸ both .notEqual rfl, .inr ⟨_, _, _, _, both .less rfl,
      both .greater rfl, both .lessEqual rfl, both .greaterEqual rfl, fun _ => ?_, fun dates => ?_⟩⟩
    · exact decideOrder_orEqual order
    · cases found.symm.trans (dated dates)
  | dated order equal =>
    have both (op : BinaryOp) (ordering : op.isOrdering = true) :
        AnswersBothWays s op a b (decideOrder op (some order)) :=
      answersBothWays s left right found (opClass_of_isOrdering ordering) (if_pos ordering)
    refine ⟨equal, ?_, ?_, .inr ⟨_, _, _, _, both .less rfl,
      both .greater rfl, both .lessEqual rfl, both .greaterEqual rfl, ?_, ?_⟩⟩
    · exact answersBothWays s left right found rfl rfl
    · exact answersBothWays s left right found rfl rfl
    · intro alike
      exact dated_coherent s found alike
    · intro dates
      cases found.symm.trans (dated dates)
      exact ⟨rfl, rfl, rfl, rfl, rfl⟩
  | unordered error equal =>
    refine ⟨equal, ?_, ?_, .inl ⟨?_, fun dates => ?_⟩⟩
    · exact answersBothWays s left right found rfl rfl
    · exact answersBothWays s left right found rfl rfl
    · exact unordered_of_verdict s left right found
    · cases found.symm.trans (dated dates)

theorem comparisons_agree_precision :
    ∃ a b : Value, a.valueType ≠ .array ∧ b.valueType ≠ .array ∧ OtherPrecision a b ∧
      Answers .empty .less a b false ∧ Answers .empty .lessEqual a b true ∧
      ∃ equal, AnswersBothWays .empty .equal a b equal ∧
        AnswersBothWays .empty .notEqual a b (!equal) := by
  have left : (Value.date ⟨⟨⟨2024, 2, 29⟩, 0, 0⟩, false⟩).valueType ≠ .array := by decide
  have right : (Value.date ⟨⟨⟨2024, 2, 29⟩, 0, 0⟩, true⟩).valueType ≠ .array := by decide
  obtain ⟨equal, same, different, _⟩ := comparisons_agree .empty left right
  exact ⟨_, _, left, right, ⟨_, _, rfl, rfl, rfl, by decide⟩, rfl, rfl, equal, same, different⟩

end Operator
end FlowScript
