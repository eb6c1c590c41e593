import FlowScript.Library.Standard
import FlowScript.Proofs.Machine.Sound

/-!
Calls of functions with several signatures. The number of the arguments, and the types that cannot
be converted to, decide which signature a call uses; then each argument is converted to what its
parameter promises, and defaults stand in for arguments left out. Main statement: arguments can be
bound if and only if some signature takes them, the first such signature is the one that counts, and
where there is none, the error says what is wrong with the first signature that comes close.
-/
namespace FlowScript

namespace ParamType

def Allows (t : ParamType) (v : Value) : Prop := ∀ r, t.strict? = some r → v.valueType = r

def promised? : ParamType → Option ValueType
  | any => none
  | bool => some .bool
  | number | integer => some .number
  | string => some .string
  | array => some .array
  | dictionary => some .dictionary
  | date => some .date
  | binary => some .binary

theorem accepts_iff {t : ParamType} {v : Value} : t.accepts v = true ↔ t.Allows v := by
  unfold accepts Allows
  cases t.strict? with
  | none => simp
  | some required => simp

theorem coerce_promised {t : ParamType} {v : Value} (s : Store) (allowed : t.Allows v)
    {r : ValueType} (promise : t.promised? = some r) : (t.coerce s v).valueType = r := by
  cases t with
  | any => cases promise
  | array | dictionary | date | binary => exact allowed r promise
  | _ =>
    cases promise
    rfl

end ParamType

def Param.MayPrecede (p q : Param) : Prop := p.isOptional = true → q.isOptional = true

instance (p q : Param) : Decidable (p.MayPrecede q) :=
  inferInstanceAs (Decidable (p.isOptional = true → q.isOptional = true))

namespace Signature

/-- Optional parameters come last, there is a parameter to repeat, and no default stands in for a
    value that nothing is converted to. -/
structure WellFormed (g : Signature) : Prop where
  optionalLast : g.params.Pairwise Param.MayPrecede
  repeats : g.variadic = true → g.params ≠ []
  plainDefaults : ∀ p ∈ g.params, p.type.strict? ≠ none → p.default = none

instance (g : Signature) : Decidable g.WellFormed :=
  decidable_of_iff
    (g.params.Pairwise Param.MayPrecede ∧ (g.variadic = true → g.params ≠ []) ∧
      ∀ p ∈ g.params, p.type.strict? ≠ none → p.default = none)
    ⟨fun h => ⟨h.1, h.2.1, h.2.2⟩, fun h => ⟨h.optionalLast, h.repeats, h.plainDefaults⟩⟩

/-- The parameter that an argument goes to: the one at its place, or the last one when it repeats. -/
def Governs (g : Signature) (i : Nat) (p : Param) : Prop :=
  g.params[i]? = some p ∨ g.variadic = true ∧ g.params.length ≤ i ∧ g.params.getLast? = some p

def FitsCount (g : Signature) (count : Nat) : Prop :=
  (g.params.filter (!·.isOptional)).length ≤ count ∧
    (g.variadic = false → count ≤ g.params.length)

def FitsAt (g : Signature) (i : Nat) (v : Value) : Prop := ∃ p, g.Governs i p ∧ p.type.Allows v

/-- The number of the arguments fits, and each of them fits where it stands. -/
def Takes (g : Signature) (args : List Value) : Prop :=
  g.FitsCount args.length ∧ ∀ i v, args[i]? = some v → g.FitsAt i v

/-- The first argument that does not fit is the value `v`, where the parameter `p` is meant. -/
def FirstMisfit (g : Signature) (args : List Value) (p : Param) (v : Value) : Prop :=
  ∃ before after, args = before ++ v :: after ∧
    (∀ i w, before[i]? = some w → g.FitsAt i w) ∧
    g.Governs before.length p ∧ ¬ p.type.Allows v

/-- The arguments in order, each converted for its parameter, and after them the defaults of the
    parameters that follow, as far as these have one. -/
structure Binds (s : Store) (g : Signature) (args bound : List Value) : Prop where
  supplied : ∀ i v, args[i]? = some v →
    ∃ p, g.Governs i p ∧ bound[i]? = some (p.type.coerce s v)
  filled : bound.drop args.length =
    ((g.params.drop args.length).takeWhile (·.default.isSome)).map fun p =>
      p.type.coerce s (.text (p.default.getD ""))
  promised : ∀ i v, bound[i]? = some v →
    ∃ p, g.Governs i p ∧ ∀ r, p.type.promised? = some r → v.valueType = r
  required : ∀ i p, g.params[i]? = some p → p.isOptional = false → i < args.length

variable {s : Store} {g : Signature} {args : List Value} {function : String}

theorem paramAt?_eq_some {i : Nat} {p : Param} : g.paramAt? i = some p ↔ g.Governs i p := by
  unfold paramAt? Governs
  cases there : g.params[i]? with
  | some q =>
    have inside : i < g.params.length := (List.getElem?_eq_some_iff.mp there).1
    have early : ¬ g.params.length ≤ i := Nat.not_le_of_lt inside
    simp [early]
  | none =>
    rw [List.getElem?_eq_none_iff] at there
    simp [there]

theorem acceptsCount_iff {count : Nat} : g.acceptsCount count = true ↔ g.FitsCount count := by
  unfold acceptsCount arity Arity.accepts FitsCount
  cases g.variadic <;> simp

theorem WellFormed.governed (wellFormed : g.WellFormed) {count i : Nat} (fits : g.FitsCount count)
    (supplied : i < count) : ∃ p, g.Governs i p := by
  by_cases inside : i < g.params.length
  · exact ⟨g.params[i], .inl (List.getElem?_eq_getElem inside)⟩
  · have variadic : g.variadic = true := by
      rw [← Bool.not_eq_false]
      intro bounded
      have most := fits.2 bounded
      omega
    have last := List.getLast?_eq_some_getLast (wellFormed.repeats variadic)
    exact ⟨_, .inr ⟨variadic, by omega, last⟩⟩

theorem required_counted {params : List Param} {i : Nat} {p : Param}
    (last : params.Pairwise Param.MayPrecede)
    (there : params[i]? = some p) (required : p.isOptional = false) :
    i < (params.filter (!·.isOptional)).length := by
  induction params generalizing i with
  | nil => simp at there
  | cons q rest ih =>
    obtain ⟨follows, later⟩ := List.pairwise_cons.mp last
    cases i with
    | zero =>
      obtain rfl : q = p := by simpa using there
      simp [required]
    | succ i =>
      rw [List.getElem?_cons_succ] at there
      have given : q.isOptional = false := by
        rw [← Bool.not_eq_true]
        intro optional
        simp [follows p (List.mem_of_getElem? there) optional] at required
      have counted := ih later there
      simpa [given] using counted

theorem fits_cons {k : Nat} {v : Value} {rest : List Value} :
    (∀ i w, (v :: rest)[i]? = some w → g.FitsAt (k + i) w) ↔
      g.FitsAt k v ∧ ∀ i w, rest[i]? = some w → g.FitsAt (k + 1 + i) w := by
  constructor
  · intro fits
    constructor
    · exact fits 0 v rfl
    · intro i w there
      have next := fits (i + 1) w there
      rwa [show k + 1 + i = k + (i + 1) by omega]
  · rintro ⟨here, later⟩ i w there
    cases i with
    | zero =>
      cases there
      exact here
    | succ i =>
      have next := later i w there
      rwa [show k + (i + 1) = k + 1 + i by omega]

theorem fitsAt_of_governs {k : Nat} {p : Param} {v : Value} (governs : g.paramAt? k = some p) :
    g.FitsAt k v ↔ p.type.accepts v = true := by
  rw [ParamType.accepts_iff]
  constructor
  · rintro ⟨q, other, allowed⟩
    rw [← paramAt?_eq_some, governs] at other
    cases other
    exact allowed
  · exact fun allowed => ⟨p, paramAt?_eq_some.mp governs, allowed⟩

theorem acceptsFrom_iff (k : Nat) (args : List Value) :
    g.acceptsFrom k args = true ↔ ∀ i v, args[i]? = some v → g.FitsAt (k + i) v := by
  induction args generalizing k with
  | nil => simp [acceptsFrom]
  | cons v rest ih =>
    rw [fits_cons, ← ih, acceptsFrom]
    split
    · rename_i p governs
      rw [Bool.and_eq_true, fitsAt_of_governs governs]
    · rename_i nowhere
      have unfit : ¬ g.FitsAt k v := by
        rintro ⟨p, governs, _⟩
        rw [← paramAt?_eq_some, nowhere] at governs
        cases governs
      simp [unfit]

theorem accepts_iff : g.accepts args = true ↔ g.Takes args := by
  rw [accepts, Bool.and_eq_true, acceptsCount_iff, acceptsFrom_iff]
  simp only [Nat.zero_add, Takes]

theorem bindFrom_of_fits (function : String) {k : Nat} {args : List Value}
    (fits : ∀ i v, args[i]? = some v → g.FitsAt (k + i) v) :
    ∃ given, g.bindFrom s function k args = .ok given ∧ given.length = args.length ∧
      ∀ i v, args[i]? = some v → ∃ p, g.Governs (k + i) p ∧ p.type.Allows v ∧
        given[i]? = some (p.type.coerce s v) := by
  induction args generalizing k with
  | nil => exact ⟨[], rfl, rfl, by simp⟩
  | cons v rest ih =>
    obtain ⟨⟨p, governs, allowed⟩, later⟩ := fits_cons.mp fits
    obtain ⟨given, bound, length, each⟩ := ih later
    refine ⟨p.type.coerce s v :: given, ?_, by simp [length], ?_⟩
    · unfold bindFrom
      simp only [paramAt?_eq_some.mpr governs, ParamType.accepts_iff.mpr allowed, bound, ↓reduceIte]
    · intro i w there
      cases i with
      | zero =>
        cases there
        exact ⟨p, governs, allowed, rfl⟩
      | succ i =>
        obtain ⟨q, governs', allowed', converted⟩ := each i w there
        rw [show k + 1 + i = k + (i + 1) by omega] at governs'
        exact ⟨q, governs', allowed', converted⟩

theorem bindFrom_of_misfit (function : String) {k : Nat} {args : List Value}
    (governed : ∀ i, i < args.length → ∃ p, g.Governs (k + i) p)
    (unfit : ¬ ∀ i v, args[i]? = some v → g.FitsAt (k + i) v) :
    ∃ before v after p, args = before ++ v :: after ∧
      (∀ i w, before[i]? = some w → g.FitsAt (k + i) w) ∧
      g.Governs (k + before.length) p ∧ ¬ p.type.Allows v ∧
      g.bindFrom s function k args =
        .error (.argumentMismatch function (.wrongType p.name p.type.name v.valueType)) := by
  induction args generalizing k with
  | nil => exact absurd (by simp) unfit
  | cons v rest ih =>
    obtain ⟨p, governs⟩ := governed 0 (by simp)
    have found : g.paramAt? k = some p := paramAt?_eq_some.mpr governs
    by_cases allowed : p.type.accepts v = true
    · have fits : g.FitsAt k v := (fitsAt_of_governs found).mpr allowed
      have governed' : ∀ i, i < rest.length → ∃ q, g.Governs (k + 1 + i) q := by
        intro i inside
        have next := governed (i + 1) (by simpa using inside)
        rwa [show k + 1 + i = k + (i + 1) by omega]
      obtain ⟨before, w, after, q, rfl, early, there, wrong, failed⟩ :=
        ih governed' fun later => unfit (fits_cons.mpr ⟨fits, later⟩)
      refine ⟨v :: before, w, after, q, rfl, fits_cons.mpr ⟨fits, early⟩, ?_, wrong, ?_⟩
      · rwa [List.length_cons, show k + (before.length + 1) = k + 1 + before.length by omega]
      · unfold bindFrom
        simp only [found, allowed, failed, ↓reduceIte]
    · refine ⟨[], v, rest, p, rfl, by simp, governs, ?_, ?_⟩
      · exact fun still => allowed (ParamType.accepts_iff.mpr still)
      · unfold bindFrom
        simp only [found, allowed]
        rfl

theorem defaults_eq (s : Store) (params : List Param) :
    defaults s params = (params.takeWhile (·.default.isSome)).map fun p =>
      p.type.coerce s (.text (p.default.getD "")) := by
  induction params with
  | nil => rfl
  | cons p rest ih =>
    unfold defaults
    cases given : p.default with
    | none => simp [given]
    | some text => simp [given, ih]

theorem defaults_at {params : List Param} {i : Nat} {v : Value}
    (there : (defaults s params)[i]? = some v) :
    ∃ p text, params[i]? = some p ∧ p.default = some text ∧ v = p.type.coerce s (.text text) := by
  induction params generalizing i with
  | nil => simp [defaults] at there
  | cons p rest ih =>
    unfold defaults at there
    split at there
    · rename_i text given
      cases i with
      | zero => exact ⟨p, text, rfl, given, by simpa using there.symm⟩
      | succ i => exact ih (by simpa using there)
    · simp at there

theorem WellFormed.default_promised (wellFormed : g.WellFormed) {p : Param} {text : String}
    (member : p ∈ g.params) (given : p.default = some text) {r : ValueType}
    (promise : p.type.promised? = some r) : (p.type.coerce s (.text text)).valueType = r := by
  apply ParamType.coerce_promised s _ promise
  intro t strict
  have none := wellFormed.plainDefaults p member (by simp [strict])
  rw [given] at none
  cases none

theorem WellFormed.bind_of_takes (wellFormed : g.WellFormed) (function : String)
    (takes : g.Takes args) :
    ∃ bound, g.bind s function args = .ok bound ∧ g.Binds s args bound := by
  obtain ⟨count, fits⟩ := takes
  obtain ⟨given, done, length, each⟩ := bindFrom_of_fits (s := s) (k := 0) function
    (fun i v there => by simpa using fits i v there)
  simp only [Nat.zero_add] at each
  refine ⟨given ++ defaults s (g.params.drop args.length), ?_, ?_, ?_, ?_, ?_⟩
  · unfold bind
    simp only [acceptsCount_iff.mpr count, done, ↓reduceIte]
  · intro i v there
    obtain ⟨p, governs, _, converted⟩ := each i v there
    have inside : i < given.length := (List.getElem?_eq_some_iff.mp converted).1
    exact ⟨p, governs, by rwa [List.getElem?_append_left inside]⟩
  · rw [← length, List.drop_left, length, defaults_eq]
  · intro i v there
    by_cases inside : i < args.length
    · obtain ⟨p, governs, allowed, converted⟩ := each i _ (List.getElem?_eq_getElem inside)
      rw [List.getElem?_append_left (by omega), converted] at there
      cases there
      exact ⟨p, governs, fun r promise => ParamType.coerce_promised s allowed promise⟩
    · rw [List.getElem?_append_right (by omega)] at there
      obtain ⟨p, text, place, given, rfl⟩ := defaults_at there
      rw [List.getElem?_drop, show args.length + (i - _) = i by omega] at place
      exact ⟨p, .inl place, fun r promise =>
        wellFormed.default_promised (List.mem_of_getElem? place) given promise⟩
  · intro i p there required
    exact Nat.lt_of_lt_of_le (required_counted wellFormed.optionalLast there required) count.1

theorem WellFormed.bind_of_misfit (wellFormed : g.WellFormed) (function : String)
    (count : g.FitsCount args.length) (unfit : ¬ g.Takes args) :
    ∃ p v, g.FirstMisfit args p v ∧ g.bind s function args =
      .error (.argumentMismatch function (.wrongType p.name p.type.name v.valueType)) := by
  obtain ⟨before, v, after, p, split, early, governs, wrong, failed⟩ :=
    bindFrom_of_misfit (s := s) (k := 0) function
      (fun i inside => by simpa using wellFormed.governed count inside)
      (fun fits => unfit ⟨count, by simpa using fits⟩)
  simp only [Nat.zero_add] at early governs
  refine ⟨p, v, ⟨before, after, split, early, governs, wrong⟩, ?_⟩
  unfold bind
  simp only [acceptsCount_iff.mpr count, failed, ↓reduceIte]

def First (P : Signature → Prop) (signatures : List Signature) (g : Signature) : Prop :=
  ∃ before after, signatures = before ++ g :: after ∧ P g ∧ ∀ h ∈ before, ¬ P h

theorem find?_eq_some_of_first {P : Signature → Prop} {p : Signature → Bool}
    (decides : ∀ h, p h = true ↔ P h) {signatures : List Signature} (first : First P signatures g) :
    signatures.find? p = some g := by
  obtain ⟨before, after, split, holds, early⟩ := first
  apply List.find?_eq_some_iff_append.mpr
  refine ⟨(decides g).mpr holds, before, after, split, ?_⟩
  intro h member
  rw [Bool.not_eq_true', ← Bool.not_eq_true, decides]
  exact early h member

theorem find?_eq_none_of_none {P : Signature → Prop} {p : Signature → Bool}
    (decides : ∀ h, p h = true ↔ P h) {signatures : List Signature}
    (nothing : ∀ h ∈ signatures, ¬ P h) : signatures.find? p = none := by
  rw [List.find?_eq_none]
  intro h member
  rw [decides]
  exact nothing h member

theorem exists_first {P : Signature → Prop} {signatures : List Signature}
    (some_holds : ∃ g ∈ signatures, P g) : ∃ g, First P signatures g := by
  induction signatures with
  | nil => simp at some_holds
  | cons h rest ih =>
    by_cases here : P h
    · exact ⟨h, [], rest, rfl, here, by simp⟩
    · have later : ∃ g ∈ rest, P g := by simpa [here] using some_holds
      obtain ⟨g, before, after, rfl, holds, early⟩ := ih later
      refine ⟨g, h :: before, after, rfl, holds, ?_⟩
      exact List.forall_mem_cons.mpr ⟨here, early⟩

theorem choose_eq (function : String) (signatures : List Signature) (args : List Value) :
    choose function signatures args =
      match (signatures.find? (·.accepts args)).or
        (signatures.find? (·.acceptsCount args.length)) with
      | some g => .ok g
      | none => .error (arityError function signatures args.length) := by
  unfold choose choose?
  rw [List.find?_eq_bind_findIdx?_getElem?, List.find?_eq_bind_findIdx?_getElem?]
  cases found : signatures.findIdx? (·.accepts args) with
  | none => rfl
  | some i =>
    have inside := (List.findIdx?_eq_some_iff_getElem.mp found).1
    simp [List.getElem?_eq_getElem inside]

end Signature

namespace Function

theorem prepare_eq (f : Function) (args : List Value) (m : Machine) :
    f.prepare args m =
      match Signature.choose f.name f.signatures args with
      | .ok g => (g.bind m.store f.name args, m)
      | .error e => (.error e, m) := by
  change (Eval.ofExcept (Signature.choose f.name f.signatures args) >>= fun g =>
    Eval.ofExcept (g.bind m.store f.name args)) m = _
  rw [Eval.bind_apply]
  cases Signature.choose f.name f.signatures args <;> rfl

/-- What becomes of the arguments of a call. -/
structure Resolves (f : Function) (args : List Value) (m : Machine) : Prop where
  succeeds_iff : (∃ bound, f.prepare args m = (.ok bound, m)) ↔ ∃ g ∈ f.signatures, g.Takes args
  takes : ∀ g, Signature.First (·.Takes args) f.signatures g →
    Signature.choose f.name f.signatures args = .ok g ∧
    ∃ bound, f.prepare args m = (.ok bound, m) ∧ g.Binds m.store args bound
  misfit : (∀ h ∈ f.signatures, ¬ h.Takes args) →
    ∀ g, Signature.First (·.FitsCount args.length) f.signatures g →
    ∃ p v, g.FirstMisfit args p v ∧ f.prepare args m =
      (.error (.argumentMismatch f.name (.wrongType p.name p.type.name v.valueType)), m)
  miscounted : (∀ h ∈ f.signatures, ¬ h.FitsCount args.length) → f.prepare args m =
    (.error (.argumentMismatch f.name (.arity (f.signatures.map (·.arity)) args.length)), m)

variable {f : Function} {args : List Value} {m : Machine} {g : Signature}

theorem prepare_of_first (wellFormed : ∀ g ∈ f.signatures, g.WellFormed)
    (first : Signature.First (·.Takes args) f.signatures g) :
    Signature.choose f.name f.signatures args = .ok g ∧
    ∃ bound, f.prepare args m = (.ok bound, m) ∧ g.Binds m.store args bound := by
  have found := Signature.find?_eq_some_of_first (fun h => Signature.accepts_iff) first
  have chosen : Signature.choose f.name f.signatures args = .ok g := by
    rw [Signature.choose_eq, found]
    rfl
  obtain ⟨before, after, split, takes, _⟩ := first
  obtain ⟨bound, done, binds⟩ := (wellFormed g (by simp [split])).bind_of_takes
    (s := m.store) f.name takes
  refine ⟨chosen, bound, ?_, binds⟩
  rw [prepare_eq, chosen, ← done]

theorem prepare_of_misfit (wellFormed : ∀ g ∈ f.signatures, g.WellFormed)
    (untaken : ∀ h ∈ f.signatures, ¬ h.Takes args)
    (first : Signature.First (·.FitsCount args.length) f.signatures g) :
    ∃ p v, g.FirstMisfit args p v ∧ f.prepare args m =
      (.error (.argumentMismatch f.name (.wrongType p.name p.type.name v.valueType)), m) := by
  have nowhere := Signature.find?_eq_none_of_none (fun h => Signature.accepts_iff) untaken
  have found := Signature.find?_eq_some_of_first (fun h => Signature.acceptsCount_iff) first
  obtain ⟨before, after, split, count, _⟩ := first
  have member : g ∈ f.signatures := by simp [split]
  obtain ⟨p, v, first_wrong, failed⟩ := (wellFormed g member).bind_of_misfit
    (s := m.store) f.name count (untaken g member)
  refine ⟨p, v, first_wrong, ?_⟩
  rw [prepare_eq, Signature.choose_eq, nowhere, found, ← failed]
  rfl

theorem prepare_of_miscount (uncounted : ∀ h ∈ f.signatures, ¬ h.FitsCount args.length) :
    f.prepare args m =
      (.error (.argumentMismatch f.name (.arity (f.signatures.map (·.arity)) args.length)), m) := by
  have miscounted := Signature.find?_eq_none_of_none (fun h => Signature.acceptsCount_iff) uncounted
  have nowhere := Signature.find?_eq_none_of_none (P := (·.Takes args))
    (fun h => Signature.accepts_iff) fun h member takes => uncounted h member takes.1
  rw [prepare_eq, Signature.choose_eq, nowhere, miscounted]
  rfl

theorem prepare_eq_ok_iff (wellFormed : ∀ g ∈ f.signatures, g.WellFormed) :
    (∃ bound, f.prepare args m = (.ok bound, m)) ↔ ∃ g ∈ f.signatures, g.Takes args := by
  constructor
  · rintro ⟨bound, done⟩
    apply Classical.byContradiction
    intro nothing
    have untaken : ∀ h ∈ f.signatures, ¬ h.Takes args := fun h member takes =>
      nothing ⟨h, member, takes⟩
    by_cases counted : ∃ g ∈ f.signatures, g.FitsCount args.length
    · obtain ⟨g, first⟩ := Signature.exists_first counted
      obtain ⟨p, v, _, failed⟩ := prepare_of_misfit (m := m) wellFormed untaken first
      cases done.symm.trans failed
    · have failed := prepare_of_miscount (f := f) (m := m) fun h member count =>
        counted ⟨h, member, count⟩
      cases done.symm.trans failed
  · intro taken
    obtain ⟨g, first⟩ := Signature.exists_first taken
    obtain ⟨_, bound, done, _⟩ := prepare_of_first (m := m) wellFormed first
    exact ⟨bound, done⟩

end Function

namespace Library

theorem standard_wellFormed :
    ∀ f ∈ standard.functions, ∀ g ∈ f.signatures, g.WellFormed := by
  apply forall_standard
  · decide
  · decide
  · decide
  · decide
  · decide
  · decide
  · decide

/-- All standard functions have signatures that are well formed. Whatever function has such
    signatures, and whatever the arguments, they are bound if and only if some signature takes them.
    The first such signature is used: it gets the arguments in order, each converted, and then
    defaults, and all have the types that the parameters promise. When no signature takes the
    arguments, the error is about the first misfit under the first signature that takes their
    number, or about their number if none does. -/
theorem overloads_resolve :
    (∀ f ∈ standard.functions, ∀ g ∈ f.signatures, g.WellFormed) ∧
    ∀ (f : Function) (args : List Value) (m : Machine),
      (∀ g ∈ f.signatures, g.WellFormed) → f.Resolves args m := by
  refine ⟨standard_wellFormed, fun f args m wellFormed => ?_⟩
  constructor
  · exact Function.prepare_eq_ok_iff wellFormed
  · exact fun g first => Function.prepare_of_first wellFormed first
  · exact fun untaken g first => Function.prepare_of_misfit wellFormed untaken first
  · exact Function.prepare_of_miscount

theorem overloads_resolve_text :
    ∃ f, standard.find? "FormatDate" = some f ∧ (∀ g ∈ f.signatures, g.WellFormed) ∧
      ∀ m, f.Resolves [.text "2024-01-02", .bool true] m ∧
        f.prepare [.text "2024-01-02", .bool true] m =
          (.ok [.text "2024-01-02", .text "1"], m) := by
  refine ⟨_, rfl, by decide, fun m => ⟨?_, rfl⟩⟩
  exact overloads_resolve.2 _ _ m (by decide)

end Library
end FlowScript
