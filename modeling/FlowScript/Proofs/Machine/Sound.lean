import FlowScript.Machine
import FlowScript.Proofs.Member.Assign

/-!
Machines in which no container reaches itself and every handle was given out by the store. Main
statement: each primitive computation keeps a machine sound, whether it succeeds or fails, and
answers with values that the store knows.
-/
namespace FlowScript

theorem Store.knows_of_scalar {s : Store} {v : Value} (scalar : ¬ v.IsContainer) : s.Knows v := by
  cases v <;> first | trivial | exact absurd trivial scalar

theorem SystemVariable.initial_scalar {var : SystemVariable} {v : Value}
    (found : var.initial? = some v) : ¬ v.IsContainer := by
  unfold initial? at found
  split at found
  · cases found
  · split at found
    · cases found
      exact id
    · obtain ⟨x, _, rfl⟩ := Option.map_eq_some_iff.mp found
      exact id
    · cases found
      exact id
    · cases found

namespace Scope

variable {sc : Scope} {s t : Store}

structure KnownTo (sc : Scope) (s : Store) : Prop where
  globals : ∀ v, .holding v ∈ sc.globals.values → s.Knows v
  locals : ∀ f ∈ sc.frames, ∀ v ∈ f.values, s.Knows v

theorem KnownTo.grown (known : sc.KnownTo s) (grows : s.Grows t) : sc.KnownTo t where
  globals v member := grows.knows (known.globals v member)
  locals f listed v member := grows.knows (known.locals f listed v member)

theorem KnownTo.local (known : sc.KnownTo s) {name : String} {v : Value}
    (found : sc.local? name = some v) : s.Knows v := by
  obtain ⟨f, listed, there⟩ := List.exists_of_findSome?_eq_some found
  exact known.locals f listed v (Entries.mem_values_of_get? there)

theorem KnownTo.setGlobal (known : sc.KnownTo s) (name : String) {v : Value} (new : s.Knows v) :
    (sc.setGlobal name v).KnownTo s where
  globals w member := by
    rcases Entries.mem_values_insert member with same | old
    · cases same
      exact new
    · exact known.globals w old
  locals := known.locals

theorem KnownTo.getGlobal (known : sc.KnownTo s) (name : String) :
    s.Knows (sc.getGlobal name).1 ∧ (sc.getGlobal name).2.KnownTo s := by
  unfold Scope.getGlobal
  dsimp only
  split
  · rename_i v found
    exact ⟨known.globals v (Entries.mem_values_of_get? found), known⟩
  · exact ⟨trivial, known.setGlobal name trivial⟩

theorem known_of_insert {f : Frame} (known : ∀ v ∈ f.values, s.Knows v) (name : String) {v : Value}
    (new : s.Knows v) : ∀ w ∈ (f.insert name v).values, s.Knows w := by
  intro w member
  rcases Entries.mem_values_insert member with same | old
  · subst same
    exact new
  · exact known w old

theorem known_of_overwrite {name : String} {v : Value} (new : s.Knows v) {fs gs : List Frame}
    (known : ∀ f ∈ fs, ∀ w ∈ f.values, s.Knows w) (done : overwrite? name v fs = some gs) :
    ∀ f ∈ gs, ∀ w ∈ f.values, s.Knows w := by
  induction fs generalizing gs with
  | nil => cases done
  | cons f rest ih =>
    rw [List.forall_mem_cons] at known
    unfold overwrite? at done
    split at done
    · cases done
      exact List.forall_mem_cons.mpr ⟨known_of_insert known.1 name new, known.2⟩
    · obtain ⟨later, inner, rfl⟩ := Option.map_eq_some_iff.mp done
      exact List.forall_mem_cons.mpr ⟨known.1, ih known.2 inner⟩

theorem KnownTo.setLocal (known : sc.KnownTo s) (name : String) {v : Value} (new : s.Knows v) :
    (sc.setLocal name v).KnownTo s := by
  have frames := List.forall_mem_cons.mp known.locals
  have inserted := known_of_insert frames.1 name new
  unfold Scope.setLocal
  split
  · exact ⟨known.globals, List.forall_mem_cons.mpr ⟨inserted, frames.2⟩⟩
  · split
    · rename_i done
      exact ⟨known.globals,
        List.forall_mem_cons.mpr ⟨frames.1, known_of_overwrite new frames.2 done⟩⟩
    · exact ⟨known.globals, List.forall_mem_cons.mpr ⟨inserted, frames.2⟩⟩

theorem KnownTo.set (known : sc.KnownTo s) (name : String) {v : Value} (new : s.Knows v) :
    (sc.set name v).KnownTo s := by
  unfold Scope.set
  split
  · exact known.setGlobal name new
  · exact known.setLocal name new

theorem KnownTo.setLastError (known : sc.KnownTo s) (message : String) :
    (sc.setLastError message).KnownTo s :=
  ⟨known.globals, known.locals⟩

theorem known_of_ofList {pairs : List (String × Slot)}
    (known : ∀ p ∈ pairs, ∀ v, p.2 = .holding v → s.Knows v) (v : Value)
    (member : .holding v ∈ (Entries.ofList pairs).values) : s.Knows v := by
  have start : ∀ v, .holding v ∈ (Entries.empty : Entries Slot).values → s.Knows v := by
    simp [Entries.values, Entries.empty]
  unfold Entries.ofList at member
  generalize Entries.empty = e at member start
  induction pairs generalizing e with
  | nil => exact start v member
  | cons p rest ih =>
    rw [List.forall_mem_cons] at known
    refine ih known.2 (e.insert p.1 p.2) member ?_
    intro w inserted
    rcases Entries.mem_values_insert inserted with same | old
    · exact known.1 w same.symm
    · exact start w old

theorem initial_known (s : Store) : Scope.initial.KnownTo s where
  globals := by
    refine known_of_ofList ?_
    intro p listed v holding
    obtain ⟨var, _, rfl⟩ := List.mem_map.mp listed
    dsimp only at holding
    split at holding
    · rename_i value found
      cases holding
      exact Store.knows_of_scalar (SystemVariable.initial_scalar found)
    · cases holding
  locals f listed v member := by
    have only : f = .empty := by simpa [Scope.initial, frames] using listed
    simp [only, Entries.values, Entries.empty] at member

end Scope

namespace Machine

variable {m : Machine}

/-- No container reaches itself, and every handle in a container or a variable was given out. -/
structure Sound (m : Machine) : Prop where
  store : m.store.Sound
  scope : m.scope.KnownTo m.store

/-- Every handle in a container or a variable was given out, since handles come from nowhere else. -/
structure Closed (m : Machine) : Prop where
  contents : ∀ v w, m.store.HasChild v w → m.store.Knows w
  scope : m.scope.KnownTo m.store

theorem Closed.sound (closed : m.Closed) (acyclic : m.store.Acyclic) : m.Sound :=
  ⟨⟨acyclic, closed.contents⟩, closed.scope⟩

theorem Sound.closed (sound : m.Sound) : m.Closed := ⟨sound.store.closed, sound.scope⟩

theorem initial_sound (options : Options) (clock : Moment) : (initial options clock).Sound :=
  ⟨Store.empty_sound, Scope.initial_known _⟩

theorem Sound.report (sound : m.Sound) (e : Event) : (m.report e).Sound := ⟨sound.store, sound.scope⟩

theorem Sound.setStore (sound : m.Sound) {t : Store} (after : t.Sound) (grows : m.store.Grows t) :
    { m with store := t }.Sound :=
  ⟨after, sound.scope.grown grows⟩

theorem Sound.setScope (sound : m.Sound) {sc : Scope} (known : sc.KnownTo m.store) :
    { m with scope := sc }.Sound :=
  ⟨sound.store, known⟩

end Machine

namespace Eval

variable {α β : Type} {m : Machine} {x : Eval α} {post : Store → α → Prop}

/-- A computation that starts on a sound machine leaves one, whether it succeeds or fails, and its
    answer is as `post` says. -/
def SoundFrom (m : Machine) (x : Eval α) (post : Store → α → Prop) : Prop :=
  m.Sound → (x m).2.Sound ∧ m.store.Grows (x m).2.store ∧
    ∀ a, (x m).1 = .ok a → post (x m).2.store a

def anything (_ : Store) (_ : α) : Prop := True

theorem sound_pure {a : α} (holds : post m.store a) : SoundFrom m (pure a) post := by
  intro sound
  refine ⟨sound, .refl _, ?_⟩
  rintro b ⟨⟩
  exact holds

theorem sound_fail (e : RunError) : SoundFrom m (fail e) post := by
  intro sound
  exact ⟨sound, .refl _, nofun⟩

theorem sound_ofExcept {r : Except RunError α} (holds : ∀ a, r = .ok a → post m.store a) :
    SoundFrom m (ofExcept r) post :=
  fun sound => ⟨sound, .refl _, holds⟩

theorem bind_apply (x : Eval α) (f : α → Eval β) (m : Machine) :
    (x >>= f) m =
      match x m with
      | (.ok a, n) => f a n
      | (.error e, n) => (.error e, n) :=
  rfl

theorem SoundFrom.bind {f : α → Eval β} {last : Store → β → Prop} (first : SoundFrom m x post)
    (next : ∀ a n, m.store.Grows n.store → post n.store a → SoundFrom n (f a) last) :
    SoundFrom m (x >>= f) last := by
  intro sound
  obtain ⟨after, grows, answer⟩ := first sound
  rw [bind_apply]
  cases run : x m with
  | mk r n =>
    rw [run] at after grows answer
    cases r with
    | error e => exact ⟨after, grows, nofun⟩
    | ok a =>
      obtain ⟨sound', grows', answer'⟩ := next a n grows (answer a rfl) after
      exact ⟨sound', grows.trans grows', answer'⟩

theorem sound_store_bind {f : Store → Eval β} {last : Store → β → Prop}
    (next : SoundFrom m (f m.store) last) : SoundFrom m (store >>= f) last := next

theorem sound_scope_bind {f : Scope → Eval β} {last : Store → β → Prop}
    (next : SoundFrom m (f m.scope) last) : SoundFrom m (scope >>= f) last := next

theorem sound_machine_bind {f : Machine → Eval β} {last : Store → β → Prop}
    (next : SoundFrom m (f m) last) : SoundFrom m (machine >>= f) last := next

theorem sound_ofExcept_bind {r : Except RunError α} {f : α → Eval β} {last : Store → β → Prop}
    (next : ∀ a, r = .ok a → SoundFrom m (f a) last) : SoundFrom m (ofExcept r >>= f) last := by
  cases r with
  | error e => exact sound_fail e
  | ok a => exact next a rfl

theorem SoundFrom.orElse {handler : RunError → Eval α} (first : SoundFrom m x post)
    (other : ∀ e n, m.store.Grows n.store → SoundFrom n (handler e) post) :
    SoundFrom m (x.orElse handler) post := by
  intro sound
  obtain ⟨after, grows, answer⟩ := first sound
  unfold Eval.orElse
  cases run : x m with
  | mk r n =>
    rw [run] at after grows answer
    cases r with
    | ok a => exact ⟨after, grows, answer⟩
    | error e =>
      obtain ⟨sound', grows', answer'⟩ := other e n grows after
      exact ⟨sound', grows.trans grows', answer'⟩

theorem SoundFrom.truth {x : Eval Value} {post : Store → Value → Prop} (first : SoundFrom m x post) :
    SoundFrom m x.truth anything := by
  intro sound
  obtain ⟨after, grows, _⟩ := first sound
  unfold Eval.truth
  cases run : x m with
  | mk r n =>
    rw [run] at after grows
    cases r <;> exact ⟨after, grows, fun _ _ => trivial⟩

theorem sound_report (e : Event) : SoundFrom m (report e) anything :=
  fun sound => ⟨sound.report e, .refl _, fun _ _ => trivial⟩

theorem sound_setScope {sc : Scope} (known : m.Sound → sc.KnownTo m.store) :
    SoundFrom m (setScope sc) anything :=
  fun sound => ⟨sound.setScope (known sound), .refl _, fun _ _ => trivial⟩

theorem sound_setStore {t : Store} (after : m.Sound → t.Sound) (grows : m.store.Grows t) :
    SoundFrom m (setStore t) anything :=
  fun sound => ⟨sound.setStore (after sound) grows, grows, fun _ _ => trivial⟩

theorem sound_newArray {values : List Value} (known : ∀ v ∈ values, m.store.Knows v) :
    SoundFrom m (newArray values) Store.Knows := by
  intro sound
  have grows := Store.grows_newArray m.store values
  refine ⟨sound.setStore (Store.sound_newArray sound.store known) grows, grows, ?_⟩
  rintro v ⟨⟩
  simp [newArray, Store.newArray, Store.Knows]

theorem sound_newDictionary : SoundFrom m (newDictionary .empty) Store.Knows := by
  intro sound
  have grows := Store.grows_newDictionary m.store .empty
  refine ⟨sound.setStore (Store.sound_newDictionary sound.store) grows, grows, ?_⟩
  rintro v ⟨⟩
  simp [newDictionary, Store.newDictionary, Store.Knows]

theorem sound_render (v : Value) : SoundFrom m (render v) anything :=
  fun sound => ⟨sound, .refl _, fun _ _ => trivial⟩

theorem sound_getGlobal (name : String) : SoundFrom m (getGlobal name) Store.Knows := by
  intro sound
  obtain ⟨known, scope⟩ := sound.scope.getGlobal name
  refine ⟨sound.setScope scope, .refl _, ?_⟩
  rintro v ⟨⟩
  exact known

theorem sound_getLocal (name : String) : SoundFrom m (getLocal name) Store.Knows := by
  intro sound
  refine ⟨sound, .refl _, ?_⟩
  intro v found
  unfold getLocal Scope.getLocal at found
  dsimp only at found
  split at found
  · rename_i there
    cases found
    exact sound.scope.local there
  · cases found

theorem sound_readMember (object key : Value) : SoundFrom m (readMember object key) Store.Knows := by
  intro sound
  refine ⟨sound, .refl _, ?_⟩
  intro v found
  exact Member.read_known sound.store found

theorem sound_combine (op : AssignOp) {current rhs : Value} (left : m.store.Knows current)
    (right : m.store.Knows rhs) : SoundFrom m (combine op current rhs) Store.Knows := by
  intro sound
  unfold combine
  cases done : Operator.combine m.store op current rhs with
  | error e => exact ⟨sound, .refl _, nofun⟩
  | ok p =>
    obtain ⟨after, grows, known⟩ := Operator.combine_sound sound.store left right done
    refine ⟨sound.setStore after grows, grows, ?_⟩
    rintro v ⟨⟩
    exact known

theorem sound_binary (op : BinaryOp) {a b : Value} (left : m.store.Knows a)
    (right : m.store.Knows b) : SoundFrom m (binary op a b) Store.Knows := by
  intro sound
  unfold binary
  cases done : Operator.binary m.store op a b with
  | error e => exact ⟨sound, .refl _, nofun⟩
  | ok p =>
    obtain ⟨after, grows, known⟩ := Operator.binary_sound sound.store left right done
    refine ⟨sound.setStore after grows, grows, ?_⟩
    rintro v ⟨⟩
    exact known

theorem sound_assignMember (object key : Value) (op : AssignOp) {rhs : Value}
    (known : m.store.Knows rhs) : SoundFrom m (assignMember object key op rhs) Store.Knows := by
  intro sound
  obtain ⟨after, grows, stored⟩ := Member.assign_sound sound.store known object key op
  unfold assignMember
  cases run : Member.assign m.store object key op rhs with
  | mk r t =>
    rw [run] at after grows stored
    cases r with
    | error e => exact ⟨sound.setStore after grows, grows, nofun⟩
    | ok written =>
      cases written with
      | stored v =>
        refine ⟨sound.setStore after grows, grows, ?_⟩
        rintro w ⟨⟩
        exact stored v rfl
      | outside size =>
        refine ⟨(sound.setStore after grows).report _, grows, ?_⟩
        rintro w ⟨⟩
        trivial

end Eval
end FlowScript
