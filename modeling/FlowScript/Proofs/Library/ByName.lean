import FlowScript.Evaluate
import FlowScript.Library.Standard
import FlowScript.Proofs.Machine.Sound
import FlowScript.Proofs.Member.Path
import FlowScript.Proofs.Scope.Frames

/-!
Variables and their members by name. `Set` walks along its keys to a container and stores a value
there; `Get` walks along all keys. The stored value may hold parts of what lies on the way, but
never the container itself. Main statement: `Get` finds what `Set` has stored, and nothing else has
changed.
-/
namespace FlowScript

namespace Signature

variable {s : Store} {g : Signature} {i : Nat} {args : List Value}

theorem bindFrom_any (function : String)
    (any : ∀ j, i ≤ j → ∃ p, g.paramAt? j = some p ∧ p.type = .any) (args : List Value) :
    g.acceptsFrom i args = true ∧ g.bindFrom s function i args = .ok args := by
  induction args generalizing i with
  | nil => exact ⟨rfl, rfl⟩
  | cons v rest ih =>
    obtain ⟨p, found, type⟩ := any i (Nat.le_refl i)
    obtain ⟨accepted, bound⟩ := ih fun j late => any j (Nat.le_of_succ_le late)
    have fits : p.type.accepts v = true := by rw [type]; rfl
    have kept : p.type.coerce s v = v := by rw [type]; rfl
    constructor
    · simp only [acceptsFrom, found, fits, accepted, Bool.and_self]
    · simp only [bindFrom, found, fits, kept, bound, ↓reduceIte]

theorem defaults_eq_nil {params : List Param} (none : ∀ p ∈ params, p.default = none) :
    defaults s params = [] := by
  cases params with
  | nil => rfl
  | cons p rest => simp only [defaults, none p (by simp)]

structure TakesName (g : Signature) : Prop where
  variadic : g.variadic = true
  first : ∃ p rest, g.params = p :: rest ∧ p.type = .string ∧ p.default = none ∧ rest ≠ [] ∧
    ∀ q ∈ rest, q.type = .any ∧ q.default = none

theorem TakesName.any (takes : g.TakesName) (j : Nat) :
    ∃ p, g.paramAt? (j + 1) = some p ∧ p.type = .any := by
  obtain ⟨variadic, p, rest, params, _, _, some_more, any⟩ := takes
  cases found : rest[j]? with
  | some q => exact ⟨q, by simp [paramAt?, params, found], (any q (List.mem_of_getElem? found)).1⟩
  | none =>
    refine ⟨rest.getLast some_more, ?_, (any _ (List.getLast_mem some_more)).1⟩
    simp [paramAt?, params, found, variadic, List.getLast?_cons,
      List.getLast?_eq_some_getLast some_more]

theorem TakesName.acceptsCount (takes : g.TakesName) (enough : g.arity.least ≤ args.length + 1) :
    g.acceptsCount (args.length + 1) = true := by
  have unbounded : g.arity.most = none := by simp [arity, takes.variadic]
  simpa [Signature.acceptsCount, Arity.accepts, unbounded] using enough

theorem TakesName.bind (takes : g.TakesName) (enough : g.arity.least ≤ args.length + 1)
    (s : Store) (function name : String) :
    g.accepts (.text name :: args) = true ∧
      g.bind s function (.text name :: args) = .ok (.text name :: args) := by
  have count := takes.acceptsCount enough
  obtain ⟨accepted, bound⟩ := bindFrom_any (s := s) (g := g) (i := 1) function (by
    intro j late
    obtain ⟨i, rfl⟩ := Nat.exists_eq_add_of_le' late
    exact takes.any i) args
  obtain ⟨_, p, rest, params, type, plain, _, any⟩ := takes
  have first : g.paramAt? 0 = some p := by simp [paramAt?, params]
  have fits : p.type.accepts (.text name) = true := by rw [type]; rfl
  have kept : p.type.coerce s (.text name) = .text name := by rw [type]; rfl
  have nothing : defaults s (g.params.drop (.text name :: args : List Value).length) = [] := by
    apply defaults_eq_nil
    intro q listed
    rw [params] at listed
    rcases List.mem_cons.mp (List.mem_of_mem_drop listed) with rfl | later
    · exact plain
    · exact (any q later).2
  constructor
  · simp only [accepts, List.length_cons, count, acceptsFrom, first, fits, accepted, Bool.and_self]
  · simp only [Signature.bind, List.length_cons, count, ↓reduceIte, bindFrom, first, fits, bound,
      kept]
    rw [List.length_cons] at nothing
    rw [nothing, List.append_nil]

end Signature

theorem Eval.all_pure (args : List Value) (m : Machine) :
    Eval.all (args.map pure) m = (.ok args, m) := by
  induction args with
  | nil => rfl
  | cons v rest ih =>
    change (Eval.all (rest.map pure) >>= fun vs => pure (v :: vs)) m = _
    rw [Eval.bind_apply, ih]
    rfl

namespace Library

def callWith (function : String) (args : List Value) : Eval Value :=
  Expr.callNamed standard function (args.map pure)

theorem callWith_immediate {function : String} {f : Function} {run : List Value → Eval Value}
    {g : Signature} (found : standard.find? function = some f) (body : f.body = .immediate run)
    (only : f.signatures = [g]) {args bound : List Value} (accepted : g.accepts args = true)
    (m : Machine) (fitted : g.bind m.store f.name args = .ok bound) :
    callWith function args m = run bound (m.report (.calling function args.length)) := by
  have prepared (e : Event) : f.prepare args (m.report e) = (.ok bound, m.report e) := by
    have chosen : Signature.choose f.name f.signatures args = .ok g := by
      simp [Signature.choose, Signature.choose?, only, accepted]
    change (Eval.ofExcept (Signature.choose _ _ _) >>= fun g =>
      Eval.ofExcept (g.bind m.store f.name _)) (m.report e) = _
    rw [chosen]
    exact congrArg (·, m.report e) fitted
  have convention : f.convention = .immediate := by simp [Function.convention, body]
  have called : f.call bound = run bound := by simp [Function.call, body]
  unfold callWith Expr.callNamed
  simp only [found, List.length_map]
  change f.apply (args.map pure) (m.report _) = _
  unfold Function.apply
  simp only [convention]
  rw [Eval.bind_apply, Eval.all_pure]
  dsimp only
  rw [Eval.bind_apply, prepared]
  dsimp only
  rw [called]

theorem callWith_named {function : String} {f : Function} {run : List Value → Eval Value}
    {g : Signature} (found : standard.find? function = some f) (body : f.body = .immediate run)
    (only : f.signatures = [g]) (takes : g.TakesName) {args : List Value}
    (enough : g.arity.least ≤ args.length + 1) (name : String) (m : Machine) :
    callWith function (.text name :: args) m =
      run (.text name :: args) (m.report (.calling function (args.length + 1))) := by
  obtain ⟨accepted, fitted⟩ := takes.bind enough m.store f.name name
  exact callWith_immediate found body only accepted m fitted

theorem callWith_get (name : String) (keys : List Value) (m : Machine) :
    callWith "Get" (.text name :: keys) m =
      getByName (.text name :: keys) (m.report (.calling "Get" (keys.length + 1))) := by
  refine callWith_named (g := .repeating [.required "name" .string,
    (Param.required "index" .any).opt]) rfl rfl rfl
    ⟨rfl, _, _, rfl, rfl, rfl, by simp, ?_⟩ ?_ name m
  · simp [Param.required, Param.opt]
  · exact Nat.le_add_left 1 keys.length

theorem callWith_set (name : String) (v : Value) (keys : List Value) (m : Machine) :
    callWith "Set" (.text name :: v :: keys) m =
      setByName (.text name :: v :: keys) (m.report (.calling "Set" (keys.length + 2))) := by
  refine callWith_named (g := .repeating [.required "name" .string, .required "value" .any,
    (Param.required "index" .any).opt]) rfl rfl rfl
    ⟨rfl, _, _, rfl, rfl, rfl, by simp, ?_⟩ ?_ name m
  · simp [Param.required, Param.opt]
  · exact Nat.le_add_left 2 keys.length

end Library

namespace Scope

variable {sc : Scope} {name : String} {v : Value}

/-- The value of a variable, null if it has none, and the scope after it was read. -/
def fetch (sc : Scope) (name : String) : Value × Scope :=
  if isGlobalName name then sc.getGlobal name else ((sc.local? name).getD .null, sc)

theorem fetch_scope (some_value : (sc.fetch name).1 ≠ .null) : (sc.fetch name).2 = sc := by
  unfold fetch at some_value ⊢
  split at some_value
  · rename_i isglobal
    rw [if_pos isglobal]
    unfold getGlobal at some_value ⊢
    dsimp only at some_value ⊢
    split at some_value
    · rfl
    · exact absurd rfl some_value
  · rename_i islocal
    rw [if_neg islocal]

theorem fetch_set (sc : Scope) (name : String) (v : Value) :
    (sc.set name v).fetch name = (v, sc.set name v) := by
  unfold fetch set
  split
  · simp [getGlobal, setGlobal, Entries.get?_insert]
  · simp [local?_setLocal]

theorem KnownTo.fetch {s : Store} (known : sc.KnownTo s) (name : String) :
    s.Knows (sc.fetch name).1 := by
  unfold Scope.fetch
  split
  · exact (known.getGlobal name).1
  · cases there : sc.local? name with
    | none => trivial
    | some v => exact known.local there

/-- Only the variable of that name may differ. Of the frames at most one does, and no frame further
    in has the name. -/
structure SameExcept (name : String) (sc other : Scope) : Prop where
  locals : ∃ inner f g rest, sc.frames = inner ++ f :: rest ∧ other.frames = inner ++ g :: rest ∧
    (∀ h ∈ inner, h.contains name = false) ∧
    ∀ n, isGlobalName name = true ∨ n ≠ name → g.get? n = f.get? n
  globals : ∀ n, isGlobalName name = false ∨ n ≠ name →
    other.globals.get? n = sc.globals.get? n
  lastError : other.lastError = sc.lastError

theorem setGlobal_sameExcept (sc : Scope) (v : Value) (isglobal : isGlobalName name = true) :
    sc.SameExcept name (sc.setGlobal name v) := by
  refine ⟨⟨[], sc.frame, sc.frame, sc.outer, rfl, rfl, by simp, fun _ _ => rfl⟩, ?_, rfl⟩
  intro n apart
  have other : n ≠ name := apart.resolve_left (by simp [isglobal])
  simp [setGlobal, Entries.get?_insert, globalKey, isglobal, other]

theorem setLocal_sameExcept (sc : Scope) (v : Value) (islocal : isGlobalName name ≠ true) :
    sc.SameExcept name (sc.setLocal name v) := by
  have others (f : Frame) (n : String) (apart : isGlobalName name = true ∨ n ≠ name) :
      (f.insert name v).get? n = f.get? n := by
    rw [Entries.get?_insert, if_neg (apart.resolve_left islocal)]
  refine ⟨?_, fun _ _ => by simp, by simp⟩
  rcases setLocal_cases sc name v with ⟨inner, f, rest, before, free, _, after⟩ | ⟨_, after⟩
  · exact ⟨inner, f, f.insert name v, rest, before, after, free, others f⟩
  · exact ⟨[], sc.frame, sc.frame.insert name v, sc.outer, rfl, after, by simp, others sc.frame⟩

theorem set_sameExcept (sc : Scope) (name : String) (v : Value) :
    sc.SameExcept name (sc.set name v) := by
  unfold set
  split
  · exact sc.setGlobal_sameExcept v ‹_›
  · exact sc.setLocal_sameExcept v ‹_›

end Scope

namespace Library

theorem follow_eq_walk (v : Value) (path : List Value) (m : Machine) :
    follow v path m = (Member.walk m.store v path, m) := by
  induction path generalizing v with
  | nil => rfl
  | cons key rest ih =>
    rw [follow, Eval.bind_apply]
    unfold Eval.readMember Member.walk
    cases Member.read m.store v key with
    | ok inner => exact ih inner
    | error e => rfl

theorem textArg_name (name : String) (args : List Value) (m : Machine) :
    textArg (.text name :: args) 0 m = (.ok name, m) := rfl

theorem getByName_eq (name : String) (keys : List Value) (m : Machine) :
    getByName (.text name :: keys) m =
      (Member.walk m.store (m.scope.fetch name).1 keys,
        { m with scope := (m.scope.fetch name).2 }) := by
  rw [getByName, Eval.bind_apply, textArg_name]
  unfold Scope.fetch
  by_cases isglobal : Scope.isGlobalName name = true
  · simp only [isglobal, ↓reduceIte]
    exact follow_eq_walk _ keys _
  · simp only [isglobal]
    exact follow_eq_walk _ keys m

theorem callWith_get_eq (name : String) (keys : List Value) (m : Machine) :
    ∃ k, callWith "Get" (.text name :: keys) m =
        (Member.walk m.store (m.scope.fetch name).1 keys, k) ∧
      k.store = m.store ∧ k.scope = (m.scope.fetch name).2 := by
  rw [callWith_get, getByName_eq]
  exact ⟨_, rfl, rfl, rfl⟩

theorem variableNamed_eq_ok {name : String} {w : Value} {m n : Machine}
    (found : variableNamed name m = (.ok w, n)) :
    w = (m.scope.fetch name).1 ∧ n = { m with scope := (m.scope.fetch name).2 } := by
  unfold variableNamed at found
  unfold Scope.fetch
  split at found
  · rename_i isglobal
    rw [if_pos isglobal]
    cases found
    exact ⟨rfl, rfl⟩
  · rename_i islocal
    rw [if_neg islocal]
    obtain ⟨there, rfl⟩ := Prod.mk.inj found
    rw [Scope.getLocal_eq_ok.mp there]
    exact ⟨rfl, rfl⟩

theorem setByName_nil (name : String) (v : Value) (m : Machine) :
    setByName [.text name, v] m = (.ok v, { m with scope := m.scope.set name v }) := rfl

theorem setByName_path {name : String} {v last r : Value} {path : List Value} {m n : Machine}
    (set : setByName (.text name :: v :: (path ++ [last])) m = (.ok r, n)) :
    ∃ container, Member.walk m.store (m.scope.fetch name).1 path = .ok container ∧
      Eval.assignMember container last .assign v { m with scope := (m.scope.fetch name).2 } =
        (.ok r, n) := by
  rw [setByName, Eval.bind_apply, textArg_name] at set
  have ends : (Value.text name :: v :: (path ++ [last])).drop 2 = path ++ [last] := rfl
  simp only [ends, List.getLast?_concat, List.dropLast_concat] at set
  rw [Eval.bind_apply] at set
  split at set
  · rename_i w k found
    obtain ⟨rfl, rfl⟩ := variableNamed_eq_ok found
    rw [Eval.bind_apply, follow_eq_walk] at set
    split at set
    · rename_i container k way
      obtain ⟨there, rfl⟩ := Prod.mk.inj way
      exact ⟨container, there, set⟩
    · cases set
  · cases set

/-- The container is a dictionary, or an array in which the key names an existing position. -/
def Addresses (s : Store) (container key : Value) : Prop :=
  (∃ h, container = .dictionary h) ∨
    ∃ h i, container = .array h ∧ Member.index? key = .ok (some i) ∧ i < (s.items h).length

theorem assignMember_storedAt {container last v r : Value} {m n : Machine}
    (written : Eval.assignMember container last .assign v m = (.ok r, n))
    (known : m.store.Knows container) (addressed : Addresses m.store container last) :
    r = v ∧ container.IsContainer ∧ n.scope = m.scope ∧
      Member.StoredAt m.store n.store v container last := by
  unfold Eval.assignMember at written
  rcases Member.assign_cases m.store container last .assign v with ⟨e, run⟩ |
    ⟨h, next, t, array, outside, _, _⟩ | ⟨current, put, next, t, place, done, run⟩
  · rw [run] at written
    cases written
  · -- the key names a position of the array
    exfalso
    rcases addressed with ⟨k, dictionary⟩ | ⟨k, i, array', named, inside⟩
    · exact absurd (array.symm.trans dictionary) (by simp)
    · cases array.symm.trans array'
      rcases outside with nowhere | ⟨j, there, none⟩
      · cases named.symm.trans nowhere
      · cases named.symm.trans there
        rw [List.getElem?_eq_none_iff] at none
        omega
  · cases done
    by_cases cycle : m.store.holds v container = true
    · rw [run, if_pos cycle] at written
      cases written
    · rw [run, if_neg cycle] at written
      cases written
      exact ⟨rfl, Member.place_container place, rfl, Member.put_storedAt place known v⟩

/-- What `Set` stores, `Get` finds, on every machine without cycles. Without keys, the variable has
    got the value, and nothing else has changed. With keys, the entry under the last one has got it,
    in the container that `Get` finds under the others, and nothing else has changed; that container
    has to be a dictionary, or an array that has such a position. -/
theorem get_finds_what_was_set {m n : Machine} (closed : m.Closed) (acyclic : m.store.Acyclic)
    {name : String} {v r : Value} {keys : List Value}
    (set : callWith "Set" (.text name :: v :: keys) m = (.ok r, n))
    (addressed : ∀ path last container k, keys = path ++ [last] →
      callWith "Get" (.text name :: path) m = (.ok container, k) →
      Addresses m.store container last) :
    r = v ∧
    (∃ k, callWith "Get" (.text name :: keys) n = (.ok v, k) ∧ k.store = n.store ∧
      k.scope = n.scope) ∧
    (keys = [] → n.store = m.store ∧ m.scope.SameExcept name n.scope) ∧
    (∀ path last, keys = path ++ [last] → n.scope = m.scope ∧ ∃ container k,
      callWith "Get" (.text name :: path) m = (.ok container, k) ∧
      Member.StoredAt m.store n.store v container last) := by
  rw [callWith_set] at set
  rcases List.eq_nil_or_concat keys with rfl | ⟨path, last, rfl⟩
  · rw [setByName_nil] at set
    cases set
    obtain ⟨k, got, store, scope⟩ := callWith_get_eq name []
      { m.report (.calling "Set" 2) with scope := m.scope.set name v }
    simp only [Scope.fetch_set] at got scope
    exact ⟨rfl, ⟨k, got, store, scope⟩, fun _ => ⟨rfl, m.scope.set_sameExcept name v⟩, by simp⟩
  · rw [List.concat_eq_append] at set addressed ⊢
    obtain ⟨container, way, written⟩ := setByName_path set
    change Member.walk m.store (m.scope.fetch name).1 path = _ at way
    obtain ⟨k, got, _⟩ := callWith_get_eq name path m
    rw [way] at got
    have known := Member.walk_known (closed.sound acyclic).store (closed.scope.fetch name) way
    obtain ⟨rfl, solid, scope, stored⟩ :=
      assignMember_storedAt written known (addressed path last container k rfl got)
    change n.scope = (m.scope.fetch name).2 at scope
    -- only a container leads on, so the variable was not null, and reading it changed nothing
    have some_value : (m.scope.fetch name).1 ≠ .null := by
      intro null
      rw [null] at way
      rw [Member.walk_null way] at solid
      exact solid
    rw [Scope.fetch_scope some_value] at scope
    obtain ⟨j, got', store', scope'⟩ := callWith_get_eq name (path ++ [last]) n
    rw [scope] at got' scope'
    rw [stored.walk_back acyclic solid way] at got'
    rw [Scope.fetch_scope some_value, ← scope] at scope'
    refine ⟨rfl, ⟨j, got', store', scope'⟩, by simp, ?_⟩
    intro path' last' same
    obtain ⟨rfl, rest⟩ := List.append_inj' same rfl
    cases rest
    exact ⟨scope, container, k, got, stored⟩

def shelf : Machine :=
  let m := Machine.initial {} ⟨⟨2024, 1, 1⟩, 0, 0⟩
  { m with
    store := ((m.store.newDictionary .empty).2.newArray [.dictionary 0]).2
    scope := m.scope.setLocal "a" (.array 0) }

theorem shelf_sound : shelf.Sound := by
  have start := Machine.initial_sound {} ⟨⟨2024, 1, 1⟩, 0, 0⟩
  have first := Store.sound_newDictionary start.store
  have both := Store.sound_newArray first
    (show ∀ v ∈ [Value.dictionary 0], Store.Knows _ v by simp [Store.Knows, Store.newDictionary])
  have scope := start.scope.grown ((Store.grows_newDictionary _ .empty).trans
    (Store.grows_newArray _ [.dictionary 0]))
  exact ⟨both, scope.setLocal "a" (by simp [Store.Knows, Store.newArray])⟩

theorem get_finds_what_was_set_shelf :
    shelf.Closed ∧ shelf.store.Acyclic ∧ Addresses shelf.store (.dictionary 0) (.text "k") ∧
      ∃ n, callWith "Set" [.text "a", .text "b", .null, .text "k"] shelf = (.ok (.text "b"), n) ∧
        ∃ k, callWith "Get" [.text "a", .null, .text "k"] n = (.ok (.text "b"), k) := by
  have closed := shelf_sound.closed
  have acyclic := shelf_sound.store.acyclic
  have addressed : Addresses shelf.store (.dictionary 0) (.text "k") := .inl ⟨0, rfl⟩
  refine ⟨closed, acyclic, addressed, _, rfl, ?_⟩
  have result := get_finds_what_was_set closed acyclic
    (show callWith "Set" [.text "a", .text "b", .null, .text "k"] shelf = (.ok (.text "b"), _)
      from rfl) (by
    intro path last container k same got
    have split : [Value.null] ++ [Value.text "k"] = path ++ [last] := same
    obtain ⟨rfl, rest⟩ := List.append_inj' split rfl
    cases rest
    cases got
    exact addressed)
  obtain ⟨k, got, _⟩ := result.2.1
  exact ⟨k, got⟩

end Library

end FlowScript
