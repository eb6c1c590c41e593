import FlowScript.Library.Standard
import FlowScript.Proofs.Evaluation.Asks

/-!
The functions of the standard library on sound machines. Main statement: every function keeps a
machine sound when its arguments do, and asks for nothing but its arguments.
-/
namespace FlowScript

namespace Signature

variable {s : Store} {g : Signature}

theorem coerce_known {v : Value} (known : s.Knows v) (type : ParamType) :
    s.Knows (type.coerce s v) := by
  cases type <;> first | exact known | trivial

theorem bindFrom_known {function : String} {i : Nat} {args bound : List Value}
    (known : ∀ v ∈ args, s.Knows v) (done : bindFrom s g function i args = .ok bound) :
    ∀ v ∈ bound, s.Knows v := by
  induction args generalizing i bound with
  | nil =>
    cases done
    simp
  | cons v rest ih =>
    rw [List.forall_mem_cons] at known
    unfold bindFrom at done
    split at done
    · cases done
      simp
    · split at done
      · split at done
        · rename_i inner
          cases done
          exact List.forall_mem_cons.mpr ⟨coerce_known known.1 _, ih known.2 inner⟩
        · cases done
      · cases done

theorem defaults_known (params : List Param) : ∀ v ∈ defaults s params, s.Knows v := by
  induction params with
  | nil => simp [defaults]
  | cons p rest ih =>
    unfold defaults
    split
    · exact List.forall_mem_cons.mpr ⟨coerce_known (v := .text _) trivial _, ih⟩
    · simp

theorem bind_known {function : String} {args bound : List Value} (known : ∀ v ∈ args, s.Knows v)
    (done : g.bind s function args = .ok bound) : ∀ v ∈ bound, s.Knows v := by
  unfold Signature.bind at done
  split at done
  · split at done
    · rename_i inner
      cases done
      exact List.forall_mem_append.mpr ⟨bindFrom_known known inner, defaults_known _⟩
    · cases done
  · cases done

end Signature

namespace Function

/-- An immediate function keeps a machine sound that knows its arguments; a deferred one asks for
    nothing but its arguments. -/
def Body.Sound : Body → Prop
  | .immediate run | .suspending run =>
    ∀ m args, (∀ v ∈ args, m.store.Knows v) → (run args).SoundFrom m Store.Knows
  | .deferred run =>
    ∀ (allowed : Expr → Prop) (base : Expr → Eval Value) (es : List Expr),
      (∀ e ∈ es, ∀ n, Asking.SafeFrom allowed base n (fun ev => ev e) Store.Knows) →
      ∀ m, Asking.SafeFrom allowed base m (fun ev => run (es.map ev)) Store.Knows
  | .declared _ => True

variable {f : Function} {m : Machine}

theorem prepare_sound {args : List Value} (known : ∀ v ∈ args, m.store.Knows v) :
    (f.prepare args).SoundFrom m fun s vs => ∀ v ∈ vs, s.Knows v := by
  refine Eval.sound_store_bind (Eval.sound_ofExcept_bind fun g _ => ?_)
  exact Eval.sound_ofExcept fun bound done => Signature.bind_known known done

theorem call_sound (body : f.body.Sound) {args : List Value} (known : ∀ v ∈ args, m.store.Knows v) :
    (f.call args).SoundFrom m Store.Knows := by
  unfold call
  split
  · rename_i shape
    rw [shape] at body
    exact body m args known
  all_goals exact Eval.sound_fail _

theorem callWaiting_sound (body : f.body.Sound) {args : List Value}
    (known : ∀ v ∈ args, m.store.Knows v) : (f.callWaiting args).SoundFrom m Store.Knows := by
  unfold callWaiting
  split
  · rename_i shape
    rw [shape] at body
    exact body m args known
  · exact call_sound body known

theorem callDeferred_safe (body : f.body.Sound) {allowed : Expr → Prop} {base : Expr → Eval Value}
    {es : List Expr}
    (each : ∀ e ∈ es, ∀ n, Asking.SafeFrom allowed base n (fun ev => ev e) Store.Knows) :
    Asking.SafeFrom allowed base m (fun ev => f.callDeferred (es.map ev)) Store.Knows := by
  unfold callDeferred
  split
  · rename_i shape
    rw [shape] at body
    exact body allowed base es each m
  · exact Asking.safe_of_sound (Eval.sound_fail _)

theorem apply_safe (body : f.body.Sound) {allowed : Expr → Prop} {base : Expr → Eval Value}
    {es : List Expr}
    (each : ∀ e ∈ es, ∀ n, Asking.SafeFrom allowed base n (fun ev => ev e) Store.Knows) :
    Asking.SafeFrom allowed base m (fun ev => f.apply (es.map ev)) Store.Knows := by
  unfold apply
  split
  · simp only [List.length_map]
    have checked : (Eval.ofExcept (Signature.checkArity f.name f.signatures es.length)).SoundFrom m
        Eval.anything := Eval.sound_ofExcept fun _ _ => trivial
    exact (Asking.safe_of_sound checked).bind fun _ n _ _ => callDeferred_safe body each
  · refine (Asking.safe_all each m).bind fun values n _ known => Asking.safe_of_sound ?_
    exact (prepare_sound known).bind fun bound k _ fitted => call_sound body fitted
  · refine (Asking.safe_all each m).bind fun values n _ known => Asking.safe_of_sound ?_
    exact (prepare_sound known).bind fun bound k _ fitted => callWaiting_sound body fitted

end Function

namespace Library

variable {m : Machine} {args : List Value}

theorem valueArg_known (known : ∀ v ∈ args, m.store.Knows v) (i : Nat) :
    m.store.Knows (valueArg args i) := by
  unfold valueArg
  cases there : args[i]? with
  | none => trivial
  | some v => exact known v (List.mem_of_getElem? there)

theorem textArg_sound (args : List Value) (i : Nat) : (textArg args i).SoundFrom m Eval.anything := by
  unfold textArg
  split
  · exact Eval.sound_render _
  · exact Eval.sound_pure trivial

section Deferred

variable {allowed : Expr → Prop} {base : Expr → Eval Value} {es : List Expr}
  (each : ∀ e ∈ es, ∀ n, Asking.SafeFrom allowed base n (fun ev => ev e) Store.Knows)

include each in
theorem deferredArg_safe (i : Nat) (m : Machine) :
    Asking.SafeFrom allowed base m (fun ev => deferredArg (es.map ev) i) Store.Knows := by
  cases there : es[i]? with
  | none =>
    simp only [deferredArg, List.getElem?_map, there, Option.map_none, Option.getD_none]
    exact Asking.safe_of_sound (Eval.sound_pure trivial)
  | some e =>
    simp only [deferredArg, List.getElem?_map, there, Option.map_some, Option.getD_some]
    exact each e (List.mem_of_getElem? there) m

include each in
theorem choice_safe (m : Machine) :
    Asking.SafeFrom allowed base m (fun ev => choice (es.map ev)) Store.Knows := by
  apply (deferredArg_safe each 0 m).truth.bind
  intro holds n _ _
  cases holds with
  | true => exact deferredArg_safe each 1 n
  | false => exact deferredArg_safe each 2 n

theorem firstCase_safe : ∀ {es : List Expr},
    (∀ e ∈ es, ∀ n, Asking.SafeFrom allowed base n (fun ev => ev e) Store.Knows) → ∀ m,
    Asking.SafeFrom allowed base m (fun ev => firstCase (es.map ev)) Store.Knows
  | [], _, _ => Asking.safe_of_sound (Eval.sound_pure trivial)
  | [_], _, _ => Asking.safe_of_sound (Eval.sound_pure trivial)
  | condition :: result :: rest, each, m => by
    rw [List.forall_mem_cons, List.forall_mem_cons] at each
    apply (each.1 m).truth.bind
    intro holds n _ _
    cases holds with
    | true => exact each.2.1 n
    | false => exact firstCase_safe each.2.2 n

include each in
theorem cases_safe (m : Machine) :
    Asking.SafeFrom allowed base m (fun ev => cases (es.map ev)) Store.Knows := by
  unfold cases
  simp only [List.length_map]
  split
  · exact firstCase_safe each m
  · exact Asking.safe_of_sound (Eval.sound_fail _)

include each in
theorem rounds_safe (limit left : Nat) (m : Machine) :
    Asking.SafeFrom allowed base m
      (fun ev => rounds limit (deferredArg (es.map ev) 0) (deferredArg (es.map ev) 1) left)
      Store.Knows := by
  have finished (k : Nat) (n : Machine) :
      (do Eval.report (.loopFinished k); pure Value.null : Eval Value).SoundFrom n Store.Knows :=
    (Eval.sound_report _).bind fun _ _ _ _ => Eval.sound_pure trivial
  induction left generalizing m with
  | zero =>
    refine (deferredArg_safe each 0 m).truth.bind fun holds n _ _ => Asking.safe_of_sound ?_
    cases holds with
    | true => exact Eval.sound_fail _
    | false => exact finished limit n
  | succ left ih =>
    apply (deferredArg_safe each 0 m).truth.bind
    intro holds n _ _
    cases holds with
    | true => exact (deferredArg_safe each 1 n).bind fun _ k _ _ => ih k
    | false => exact Asking.safe_of_sound (finished _ n)

include each in
theorem recover_safe (m : Machine) :
    Asking.SafeFrom allowed base m (fun ev => recover (es.map ev)) Store.Knows := by
  apply (deferredArg_safe each 0 m).orElse
  intro e n _
  apply (Asking.safe_of_sound (Eval.sound_report _)).bind
  intro _ k _ _
  refine Asking.safe_scope_bind ?_
  have noted : (Eval.setScope (k.scope.setLastError e.message)).SoundFrom k Eval.anything :=
    Eval.sound_setScope fun sound => sound.scope.setLastError _
  exact (Asking.safe_of_sound noted).bind fun _ j _ _ => deferredArg_safe each 1 j

end Deferred

theorem control_sound : ∀ f ∈ control, f.body.Sound := by
  simp only [control, List.forall_mem_cons, List.not_mem_nil, false_implies, implies_true, and_true]
  refine ⟨?_, ?_, ?_, ?_⟩
  · exact fun _ _ _ each m => choice_safe each m
  · exact fun _ _ _ each m => cases_safe each m
  · exact fun _ _ _ each m => Asking.safe_machine_bind (rounds_safe each _ _ m)
  · exact fun _ _ _ each m => recover_safe each m

theorem follow_sound {v : Value} (known : m.store.Knows v) (path : List Value) :
    (follow v path).SoundFrom m Store.Knows := by
  induction path generalizing v m with
  | nil => exact Eval.sound_pure known
  | cons key rest ih =>
    exact (Eval.sound_readMember v key).bind fun inner n _ inner_known => ih inner_known

theorem getByName_sound (args : List Value) : (getByName args).SoundFrom m Store.Knows := by
  apply (textArg_sound args 0).bind
  intro name n _ _
  dsimp only
  split
  · exact (Eval.sound_getGlobal name).bind fun v k _ known => follow_sound known _
  · intro sound
    refine Eval.sound_scope_bind (follow_sound ?_ _) sound
    cases there : n.scope.local? name with
    | none => trivial
    | some v => exact sound.scope.local there

theorem variableNamed_sound (name : String) : (variableNamed name).SoundFrom m Store.Knows := by
  unfold variableNamed
  split
  · exact Eval.sound_getGlobal name
  · exact Eval.sound_getLocal name

theorem setByName_sound (known : ∀ v ∈ args, m.store.Knows v) :
    (setByName args).SoundFrom m Store.Knows := by
  have new := valueArg_known known 1
  apply (textArg_sound args 0).bind
  intro name n grows _
  dsimp only
  split
  · refine Eval.sound_scope_bind ?_
    have assigned := Eval.sound_setScope (m := n) fun sound =>
      sound.scope.set name (grows.knows new)
    exact assigned.bind fun _ k grows' _ => Eval.sound_pure (grows'.knows (grows.knows new))
  · refine (variableNamed_sound name).bind fun outermost k grows' outermost_known => ?_
    refine (follow_sound outermost_known _).bind fun container j grows'' _ => ?_
    exact Eval.sound_assignMember container _ .assign
      (grows''.knows (grows'.knows (grows.knows new)))

theorem general_sound : ∀ f ∈ general, f.body.Sound := by
  simp only [general, List.forall_mem_cons, List.not_mem_nil, false_implies, implies_true, and_true]
  refine ⟨?_, ?_, ?_, ?_, ?_, ?_, ?_, ?_, trivial⟩
  · exact fun m args _ => Eval.sound_pure trivial
  · exact fun m args _ => Eval.sound_pure trivial
  · exact fun m args _ => Eval.sound_store_bind (Eval.sound_pure trivial)
  · exact fun m args _ => getByName_sound args
  · exact fun m args known => setByName_sound known
  · exact fun m args _ => (textArg_sound args 0).bind fun _ _ _ _ => Eval.sound_fail _
  · exact fun m args _ => Eval.sound_scope_bind (Eval.sound_pure trivial)
  · intro m args _
    apply (textArg_sound args 0).bind
    intro message n _ _
    exact (Eval.sound_report _).bind fun _ _ _ _ => Eval.sound_pure trivial

theorem conversion_sound : ∀ f ∈ conversion, f.body.Sound := by
  simp only [conversion, List.forall_mem_cons, List.not_mem_nil, false_implies, implies_true,
    and_true]
  refine ⟨?_, ?_, ?_, ?_, ?_, ?_⟩
  · exact fun m args _ => (textArg_sound args 0).bind fun _ _ _ _ => Eval.sound_pure trivial
  · exact fun m args _ => Eval.sound_pure trivial
  · exact fun m args _ => Eval.sound_pure trivial
  · exact fun m args _ => Eval.sound_store_bind (Eval.sound_pure trivial)
  · intro m args _
    unfold binaryToHex
    split <;> exact Eval.sound_pure trivial
  · intro m args _
    apply (textArg_sound args 0).bind
    intro text n _ _
    split
    · exact Eval.sound_pure trivial
    · exact Eval.sound_fail _

theorem onText_sound (f : List Char → List Char) (args : List Value) :
    (onText f args).SoundFrom m Store.Knows :=
  (textArg_sound args 0).bind fun _ _ _ _ => Eval.sound_pure trivial

theorem split_sound (args : List Value) : (split args).SoundFrom m Store.Knows := by
  apply (textArg_sound args 0).bind
  intro text n _ _
  refine (textArg_sound args 1).bind fun separator k _ _ => Eval.sound_newArray ?_
  intro v member
  obtain ⟨part, _, rfl⟩ := List.mem_map.mp member
  trivial

theorem texts_sound : ∀ f ∈ texts, f.body.Sound := by
  simp only [texts, List.forall_mem_cons, List.not_mem_nil, false_implies, implies_true, and_true]
  refine ⟨?_, ?_, ?_, ?_, ?_, ?_, ?_, ?_, ?_⟩
  · exact fun m args _ => onText_sound _ args
  · exact fun m args _ => onText_sound _ args
  · exact fun m args _ => onText_sound _ args
  · exact fun m args _ => onText_sound _ args
  · exact fun m args _ => onText_sound _ args
  · exact fun m args _ => onText_sound _ args
  · intro m args _
    apply (textArg_sound args 1).bind
    intro old n _ _
    exact (textArg_sound args 2).bind fun new k _ _ => onText_sound _ args
  · exact fun m args _ => split_sound args
  · intro m args _
    apply (textArg_sound args 0).bind
    intro text n _ _
    exact (textArg_sound args 1).bind fun _ _ _ _ => Eval.sound_pure trivial

theorem arithmetic_sound : ∀ f ∈ arithmetic, f.body.Sound := by
  simp only [arithmetic, List.forall_mem_cons, List.not_mem_nil, false_implies, implies_true,
    and_true]
  refine ⟨?_, ?_, ?_, ?_, ?_, ?_⟩
  · exact fun m args _ => Eval.sound_pure trivial
  · exact fun m args _ => Eval.sound_pure trivial
  · exact fun m args _ => Eval.sound_pure trivial
  · exact fun m args _ => Eval.sound_pure trivial
  · intro m args _
    unfold modulo
    dsimp only
    split
    · exact Eval.sound_fail _
    · exact Eval.sound_pure trivial
  · exact fun m args _ => Eval.sound_pure trivial

theorem dateArg_sound (function : String) (args : List Value) (i : Nat) :
    (dateArg function args i).SoundFrom m Eval.anything := by
  unfold dateArg
  split
  · exact Eval.sound_pure trivial
  · split
    · exact Eval.sound_pure trivial
    · exact Eval.sound_fail _
  · exact Eval.sound_fail _
  · exact Eval.sound_fail _

theorem dates_sound : ∀ f ∈ dates, f.body.Sound := by
  simp only [dates, List.forall_mem_cons, List.not_mem_nil, false_implies, implies_true, and_true]
  refine ⟨?_, ?_, ?_, ?_, ?_⟩
  · exact fun m args _ => Eval.sound_machine_bind (Eval.sound_pure trivial)
  · exact fun m args _ => Eval.sound_machine_bind (Eval.sound_pure trivial)
  · intro m args _
    apply (dateArg_sound _ args 0).bind
    intro d n _ _
    apply (textArg_sound args 1).bind
    intro pattern k _ _
    split
    · exact Eval.sound_pure trivial
    · exact Eval.sound_fail _
  · intro m args _
    apply (textArg_sound args 0).bind
    intro name n _ _
    apply (dateArg_sound _ args 2).bind
    intro d k _ _
    split
    · exact Eval.sound_fail _
    · split
      · exact Eval.sound_pure trivial
      · exact Eval.sound_fail _
  · exact fun m args _ => Eval.sound_pure trivial

theorem dictionaryArg_sound (function : String) (known : ∀ v ∈ args, m.store.Knows v) :
    (dictionaryArg function args).SoundFrom m fun s h => s.Knows (.dictionary h) := by
  unfold dictionaryArg
  split
  · exact Eval.sound_pure (known _ (by simp))
  · exact Eval.sound_fail _

theorem keyArg_sound (args : List Value) : (keyArg args).SoundFrom m Eval.anything :=
  Eval.sound_ofExcept fun _ _ => trivial

theorem addEntry_sound (known : ∀ v ∈ args, m.store.Knows v) :
    (addEntry args).SoundFrom m Store.Knows := by
  apply (dictionaryArg_sound _ known).bind
  intro h n grows _
  refine (keyArg_sound args).bind fun key k grows' _ => ?_
  have new := grows'.knows (grows.knows (valueArg_known known 2))
  refine Eval.sound_store_bind (Eval.sound_ofExcept_bind fun _ free => ?_)
  have written := Eval.sound_setStore
    (fun sound => Member.insert_sound key sound.store new free) (Store.grows_setEntries k.store h _)
  exact written.bind fun _ _ _ _ => Eval.sound_pure trivial

theorem removeEntry_sound (known : ∀ v ∈ args, m.store.Knows v) :
    (removeEntry args).SoundFrom m Store.Knows := by
  apply (dictionaryArg_sound _ known).bind
  intro h n _ _
  refine (keyArg_sound args).bind fun key k _ _ => Eval.sound_store_bind ?_
  have written := Eval.sound_setStore
    (fun sound => Store.sound_erase key sound.store) (Store.grows_setEntries k.store h _)
  exact written.bind fun _ _ _ _ => Eval.sound_pure trivial

theorem containers_sound : ∀ f ∈ containers, f.body.Sound := by
  simp only [containers, List.forall_mem_cons, List.not_mem_nil, false_implies, implies_true,
    and_true]
  refine ⟨?_, ?_, ?_, ?_, ?_, ?_⟩
  · exact fun m args known => Eval.sound_newArray known
  · exact fun m args _ => Eval.sound_newDictionary
  · exact fun m args known => addEntry_sound known
  · intro m args known
    apply (dictionaryArg_sound _ known).bind
    intro h n _ _
    exact (keyArg_sound args).bind fun _ _ _ _ => Eval.sound_store_bind (Eval.sound_pure trivial)
  · intro m args known
    apply (dictionaryArg_sound _ known).bind
    intro h n _ _
    refine Eval.sound_store_bind (Eval.sound_newArray ?_)
    intro v member
    obtain ⟨key, _, rfl⟩ := List.mem_map.mp member
    trivial
  · exact fun m args known => removeEntry_sound known

def Sound (l : Library) : Prop := ∀ f ∈ l.functions, f.body.Sound

theorem standard_sound : standard.Sound :=
  forall_standard control_sound general_sound conversion_sound texts_sound containers_sound
    arithmetic_sound dates_sound

end Library
end FlowScript
