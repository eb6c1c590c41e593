import FlowScript.Proofs.Scope.History
import FlowScript.Proofs.Store.Change
import FlowScript.Scope.Stack

/-!
The frames of a run as one list of slots. The operations keep two frames and leave no local pending,
and they do to the list what they do to a scope. Main statement: after any operations all ways to
ask for a local agree, and every frame holds what it should.
-/
namespace FlowScript

theorem mem_modify {α : Type} {change : α → α} {xs : List α} {i : Nat} {y : α}
    (member : y ∈ xs.modify i change) : y ∈ xs ∨ ∃ x ∈ xs, y = change x := by
  obtain ⟨j, found⟩ := List.mem_iff_getElem?.mp member
  rw [List.getElem?_modify] at found
  obtain ⟨x, there, same⟩ := Option.map_eq_some_iff.mp found
  have listed := List.mem_of_getElem? there
  split at same
  · exact .inr ⟨x, listed, same.symm⟩
  · exact .inl (same ▸ listed)

theorem modify_append_cons {α : Type} (change : α → α) (xs ys : List α) (x : α) :
    (xs ++ x :: ys).modify xs.length change = xs ++ change x :: ys := by
  induction xs with
  | nil => rfl
  | cons y xs ih => rw [List.cons_append, List.length_cons, List.modify_succ_cons, ih, List.cons_append]

namespace Entries

variable {α : Type}

theorem insert_insert (e : Entries α) (name : String) (first second : α) :
    (e.insert name first).insert name second = e.insert name second := by
  obtain ⟨pairs⟩ := e
  simp only [insert, mk.injEq]
  induction pairs with
  | nil => simp [insertList]
  | cons p rest ih =>
    by_cases same : p.1 = name
    · simp [insertList, same]
    · simp [insertList, same, ih]

end Entries

namespace FrameStack

variable {st : FrameStack}

def step (st : FrameStack) : Scope.Op → FrameStack
  | .pushFrame => st.pushFrame
  | .popFrame => st.popFrame
  | .setLocal name v => st.setLocal name v
  | .setGlobal name v => st.setGlobal name v
  | .set name v => st.set name v
  | .getLocal _ => st
  | .getGlobal name => (st.getGlobal name).2
  | .get name => (st.get name).2
  | .setLastError message => st.setLastError message

def after (st : FrameStack) (ops : List Scope.Op) : FrameStack := ops.foldl step st

/-- There is a frame for the globals and one for locals, and no local is pending. -/
structure Shaped (st : FrameStack) : Prop where
  two : 2 ≤ st.frames.length
  assigned : ∀ f ∈ st.localFrames, ∀ slot ∈ f.values, ∃ v, slot = .holding v

theorem initial_shaped : initial.Shaped where
  two := Nat.le_refl 2
  assigned := by simp [localFrames, initial, Entries.values, Entries.empty]

theorem Shaped.of_frames {later : FrameStack} (shaped : st.Shaped) (two : 2 ≤ later.frames.length)
    (each : ∀ f ∈ later.localFrames, f ∈ st.localFrames ∨ f = .empty ∨
      ∃ g ∈ st.localFrames, ∃ name v, f = g.insert name (.holding v)) : later.Shaped where
  two := two
  assigned := by
    intro f listed slot member
    rcases each f listed with old | rfl | ⟨g, old, name, v, rfl⟩
    · exact shaped.assigned f old slot member
    · simp [Entries.values, Entries.empty] at member
    · rcases Entries.mem_values_insert member with new | before
      · exact ⟨v, new⟩
      · exact shaped.assigned g old slot before

theorem Shaped.pushFrame (shaped : st.Shaped) : st.pushFrame.Shaped := by
  have two := shaped.two
  refine shaped.of_frames ?_ ?_
  · rw [FrameStack.pushFrame, List.length_append]
    omega
  · intro f listed
    have some_frame : st.frames ≠ [] := List.ne_nil_of_length_pos (by omega)
    rw [localFrames, FrameStack.pushFrame, List.tail_append_of_ne_nil some_frame] at listed
    rcases List.mem_append.mp listed with old | new
    · exact .inl old
    · exact .inr (.inl (List.mem_singleton.mp new))

theorem Shaped.popFrame (shaped : st.Shaped) : st.popFrame.Shaped := by
  unfold FrameStack.popFrame
  split
  · rename_i more
    refine shaped.of_frames ?_ fun f listed => .inl ?_
    · rw [List.length_dropLast]
      omega
    · rw [localFrames, List.tail_dropLast] at listed
      exact List.dropLast_subset _ listed
  · exact shaped

theorem Shaped.setLocal (shaped : st.Shaped) (name : String) (v : Value) :
    (st.setLocal name v).Shaped := by
  refine shaped.of_frames ?_ ?_
  · rw [FrameStack.setLocal, List.length_modify]
    exact shaped.two
  · intro f listed
    have inside : f ∈ (st.frames.modify (st.target name) (·.insert name (.holding v))).tail := listed
    rw [localFrames]
    generalize st.frames = frames at inside ⊢
    generalize st.target name = target at inside
    cases frames with
    | nil => simp at inside
    | cons g rest =>
      -- the frame of the globals is not among the local ones, were it the target
      cases target with
      | zero => exact .inl inside
      | succ i =>
        rcases mem_modify inside with old | ⟨x, old, same⟩
        · exact .inl old
        · exact .inr (.inr ⟨x, old, name, v, same⟩)

theorem Shaped.withGlobals (shaped : st.Shaped) (globals : Entries Slot) :
    (st.withGlobals globals).Shaped := by
  have two := shaped.two
  refine shaped.of_frames ?_ fun f listed => .inl listed
  rw [FrameStack.withGlobals, localFrames, List.length_cons, List.length_tail]
  omega

theorem Shaped.getGlobal (shaped : st.Shaped) (name : String) :
    (st.getGlobal name).2.Shaped := by
  unfold FrameStack.getGlobal
  extract_lets key globals
  split
  · exact shaped.withGlobals _
  · exact shaped.withGlobals _

theorem step_shaped (shaped : st.Shaped) (op : Scope.Op) : (st.step op).Shaped := by
  cases op with
  | pushFrame => exact shaped.pushFrame
  | popFrame => exact shaped.popFrame
  | setLocal name v => exact shaped.setLocal name v
  | setGlobal name v => exact shaped.withGlobals _
  | set name v =>
    rw [step, FrameStack.set]
    split
    · exact shaped.withGlobals _
    · exact shaped.setLocal name v
  | getLocal name => exact shaped
  | getGlobal name => exact shaped.getGlobal name
  | get name =>
    rw [step, FrameStack.get]
    split
    · exact shaped.getGlobal name
    · exact shaped
  | setLastError message => exact ⟨shaped.two, shaped.assigned⟩

theorem after_shaped (shaped : st.Shaped) (ops : List Scope.Op) : (st.after ops).Shaped := by
  induction ops generalizing st with
  | nil => exact shaped
  | cons op rest ih => exact ih (step_shaped shaped op)

end FrameStack

namespace Scope

variable {sc : Scope}

def slots (f : Frame) : Entries Slot := ⟨f.toList.map fun p => (p.1, .holding p.2)⟩

def toStack (sc : Scope) : FrameStack := ⟨sc.globals :: (sc.frames.map slots).reverse, sc.lastError⟩

theorem keys_slots (f : Frame) : (slots f).keys = f.keys := by
  simp [slots, Entries.keys]

theorem get?_slots (f : Frame) (name : String) : (slots f).get? name = (f.get? name).map .holding := by
  obtain ⟨pairs⟩ := f
  simp only [slots, Entries.get?]
  induction pairs with
  | nil => rfl
  | cons p rest ih =>
    rw [List.map_cons, List.lookup_cons, List.lookup_cons, ih]
    cases name == p.1 <;> rfl

theorem contains_slots (f : Frame) (name : String) : (slots f).contains name = f.contains name := by
  rw [Entries.contains, get?_slots, Option.isSome_map, Entries.contains]

theorem slots_insert (f : Frame) (name : String) (v : Value) :
    slots (f.insert name v) = (slots f).insert name (.holding v) := by
  obtain ⟨pairs⟩ := f
  simp only [slots, Entries.insert, Entries.mk.injEq]
  induction pairs with
  | nil => rfl
  | cons p rest ih =>
    by_cases same : p.1 = name
    · simp [Entries.insertList, same]
    · simp [Entries.insertList, same, ih]

theorem valueIn?_slots (f : Frame) (name : String) :
    FrameStack.valueIn? name (slots f) = f.get? name := by
  rw [FrameStack.valueIn?, get?_slots]
  cases f.get? name <;> rfl

theorem heldIn_slots (f : Frame) : FrameStack.heldIn (slots f) = f.toList := by
  rw [FrameStack.heldIn, slots, List.filterMap_map]
  exact List.filterMap_some

theorem localFrames_toStack (sc : Scope) :
    sc.toStack.localFrames.reverse = sc.frames.map slots := by
  rw [FrameStack.localFrames, toStack, List.tail_cons, List.reverse_reverse]

theorem getLocal_toStack (sc : Scope) (name : String) :
    sc.toStack.getLocal name = sc.getLocal name := by
  have pointwise : FrameStack.valueIn? name ∘ slots = (·.get? name) :=
    funext fun f => valueIn?_slots f name
  rw [FrameStack.getLocal, localFrames_toStack, List.findSome?_map, pointwise]
  rfl

theorem hasLocal_toStack (sc : Scope) (name : String) :
    sc.toStack.hasLocal name = sc.hasLocal name := by
  rw [FrameStack.hasLocal, ← List.any_reverse, localFrames_toStack, List.any_map]
  refine congrArg (sc.frames.any ·) (funext fun f => ?_)
  rw [Function.comp_apply, valueIn?_slots]
  rfl

theorem locals_toStack (sc : Scope) : sc.toStack.locals = sc.locals := by
  rw [FrameStack.locals, FrameStack.localFrames, toStack, List.tail_cons, ← List.map_reverse,
    List.flatMap_map]
  refine congrArg (fun held => (Entries.ofList (sc.frames.reverse.flatMap held)).toList) ?_
  exact funext heldIn_slots

theorem pushFrame_toStack (sc : Scope) : sc.pushFrame.toStack = sc.toStack.pushFrame := by
  simp [toStack, FrameStack.pushFrame, pushFrame, frames, slots, Entries.empty]

theorem popFrame_toStack (sc : Scope) : sc.popFrame.toStack = sc.toStack.popFrame := by
  obtain ⟨globals, frame, outer, lastError⟩ := sc
  cases outer with
  | nil => rfl
  | cons f rest =>
    have more : 2 < (toStack ⟨globals, frame, f :: rest, lastError⟩).frames.length := by
      simp [toStack, frames]
    rw [FrameStack.popFrame, if_pos more]
    simp [toStack, popFrame, frames, List.dropLast_cons_of_ne_nil]

theorem target_toStack {name : String} {inner rest : List Frame} {f : Frame}
    (split : sc.frames = inner ++ f :: rest) (free : ∀ g ∈ inner, g.contains name = false)
    (there : f.contains name = true) : sc.toStack.target name = rest.length + 1 := by
  have above : sc.toStack.localFrames.reverse.findIdx? (·.contains name) = some inner.length := by
    rw [localFrames_toStack, split, List.findIdx?_map, List.findIdx?_append]
    have none : inner.findIdx? ((·.contains name) ∘ slots) = none := by
      rw [List.findIdx?_eq_none_iff]
      intro g listed
      rw [Function.comp_apply, contains_slots, free g listed]
    rw [none, List.findIdx?_cons, Function.comp_apply, contains_slots, there]
    simp
  rw [FrameStack.target, above]
  simp only [toStack, split, Option.getD_some, List.length_cons, List.length_reverse,
    List.length_map, List.length_append]
  omega

theorem target_toStack_new {name : String} (free : ∀ f ∈ sc.frames, f.contains name = false) :
    sc.toStack.target name = sc.outer.length + 1 := by
  have above : sc.toStack.localFrames.reverse.findIdx? (·.contains name) = none := by
    rw [localFrames_toStack, List.findIdx?_map, List.findIdx?_eq_none_iff]
    intro f listed
    rw [Function.comp_apply, contains_slots, free f listed]
  rw [FrameStack.target, above]
  simp [toStack, frames]

theorem setLocal_toStack (sc : Scope) (name : String) (v : Value) :
    (sc.setLocal name v).toStack = sc.toStack.setLocal name v := by
  have lastError : (sc.setLocal name v).lastError = sc.lastError := setLocal_lastError
  rcases setLocal_cases sc name v with ⟨inner, f, rest, split, free, there, after⟩ | ⟨free, after⟩
  · rw [FrameStack.setLocal, target_toStack split free there, toStack, toStack, after, split,
      setLocal_globals, lastError]
    have place := modify_append_cons (·.insert name (.holding v))
      (sc.globals :: (rest.map slots).reverse) (inner.map slots).reverse (slots f)
    rw [List.length_cons, List.length_reverse, List.length_map] at place
    simpa [slots_insert] using place.symm
  · rw [FrameStack.setLocal, target_toStack_new free, toStack, toStack, after, frames,
      setLocal_globals, lastError]
    have place := modify_append_cons (·.insert name (.holding v))
      (sc.globals :: (sc.outer.map slots).reverse) [] (slots sc.frame)
    rw [List.length_cons, List.length_reverse, List.length_map] at place
    simpa [slots_insert] using place.symm

theorem setGlobal_toStack (sc : Scope) (name : String) (v : Value) :
    (sc.setGlobal name v).toStack = sc.toStack.setGlobal name v := rfl

theorem peekGlobal_toStack (sc : Scope) (name : String) :
    sc.toStack.peekGlobal name = sc.peekGlobal name := by
  change (sc.globals.get? (globalKey name)).bind Slot.value? = _
  unfold peekGlobal
  rcases sc.globals.get? (globalKey name) with _ | _ | v <;> rfl

/-- A slot that is made and at once filled is one that is filled. -/
theorem getGlobal_toStack (sc : Scope) (name : String) :
    sc.toStack.getGlobal name = ((sc.getGlobal name).1, (sc.getGlobal name).2.toStack) := by
  have globals : sc.toStack.globals = sc.globals := rfl
  unfold FrameStack.getGlobal getGlobal
  rw [globals]
  extract_lets key added
  cases found : sc.globals.get? key with
  | none =>
    have absent : sc.globals.contains key = false := by rw [Entries.contains, found]; rfl
    have fresh : added = sc.globals.insert key .pending := by simp [added, absent]
    rw [fresh, Entries.get?_insert, if_pos rfl, Entries.insert_insert]
    rfl
  | some slot =>
    have present : sc.globals.contains key = true := by rw [Entries.contains, found]; rfl
    have same : added = sc.globals := by simp [added, present]
    rw [same, found]
    cases slot <;> rfl

/-- Each operation does to the list of frames what it does to the scope. -/
theorem step_toStack (sc : Scope) (op : Op) : (sc.step op).toStack = sc.toStack.step op := by
  cases op with
  | pushFrame => exact pushFrame_toStack sc
  | popFrame => exact popFrame_toStack sc
  | setLocal name v => exact setLocal_toStack sc name v
  | setGlobal name v => exact setGlobal_toStack sc name v
  | set name v =>
    rw [step, FrameStack.step, Scope.set, FrameStack.set]
    split
    · exact setGlobal_toStack sc name v
    · exact setLocal_toStack sc name v
  | getLocal name => rfl
  | getGlobal name => rw [step, FrameStack.step, getGlobal_toStack]
  | get name =>
    rw [step, FrameStack.step, Scope.get, FrameStack.get, getGlobal_toStack]
    split <;> rfl
  | setLastError message => rfl

theorem after_toStack (sc : Scope) (ops : List Op) :
    (sc.after ops).toStack = sc.toStack.after ops := by
  induction ops generalizing sc with
  | nil => rfl
  | cons op rest ih =>
    change ((sc.step op).after rest).toStack = (sc.toStack.step op).after rest
    rw [ih, step_toStack]

theorem initial_toStack : initial.toStack = .initial := rfl

theorem localFrames_apart (orderly : sc.Orderly) :
    sc.toStack.localFrames.Pairwise fun f g => ∀ name ∈ f.keys, name ∉ g.keys := by
  have apart := (List.nodup_flatMap.mp orderly.distinct).2
  rw [FrameStack.localFrames, toStack, List.tail_cons, List.pairwise_reverse, List.pairwise_map]
  refine apart.imp ?_
  intro f g disjoint name later earlier
  rw [keys_slots] at later earlier
  exact disjoint earlier later

theorem hasLocal_iff_bound (sc : Scope) (name : String) :
    sc.hasLocal name = true ↔ ∃ f ∈ sc.toStack.localFrames, name ∈ f.keys := by
  rw [hasLocal_iff]
  constructor
  · rintro ⟨f, listed, there⟩
    refine ⟨slots f, ?_, (keys_slots f).symm ▸ there⟩
    rw [← List.mem_reverse, localFrames_toStack]
    exact List.mem_map_of_mem listed
  · rintro ⟨g, listed, there⟩
    rw [← List.mem_reverse, localFrames_toStack] at listed
    obtain ⟨f, member, rfl⟩ := List.mem_map.mp listed
    exact ⟨f, member, keys_slots f ▸ there⟩

theorem getLocal_setLocal (sc : Scope) (name : String) (v : Value) :
    (sc.toStack.setLocal name v).getLocal name = .ok v ∧
      ∀ other, other ≠ name →
        (sc.toStack.setLocal name v).getLocal other = sc.toStack.getLocal other := by
  rw [← setLocal_toStack]
  constructor
  · rw [getLocal_toStack, getLocal_eq_ok, local?_setLocal, if_pos rfl]
  · intro other different
    rw [getLocal_toStack, getLocal_toStack, getLocal, getLocal, local?_setLocal, if_neg different]

theorem locals_closed {middle : List Op} (balanced : Balanced middle) (orderly : sc.Orderly)
    (name : String) :
    let closed := sc.toStack.after (.pushFrame :: middle ++ [.popFrame])
    closed.hasLocal name = sc.toStack.hasLocal name ∧
      (sc.toStack.hasLocal name = true → closed.getLocal name =
        match lastAssigned name middle with
        | some v => .ok v
        | none => sc.toStack.getLocal name) := by
  intro closed
  have same : closed = (sc.after (.pushFrame :: middle ++ [.popFrame])).toStack :=
    (after_toStack sc _).symm
  rw [same, hasLocal_toStack, hasLocal_toStack, getLocal_toStack, getLocal_toStack]
  exact ⟨hasLocal_closed balanced sc name, getLocal_closed balanced orderly⟩

end Scope

namespace FrameStack

open Scope (Balanced isGlobalName lastAssigned)

theorem peekGlobal_setGlobal (st : FrameStack) (name : String) (v : Value) :
    (st.setGlobal name v).peekGlobal name = some v := by
  simp [peekGlobal, setGlobal, withGlobals, globals, valueIn?, Slot.value?, Entries.get?_insert]

theorem getGlobal_setGlobal (st : FrameStack) (name : String) (v : Value) :
    ((st.setGlobal name v).getGlobal name).1 = v := by
  simp [getGlobal, setGlobal, withGlobals, globals, Entries.contains, Entries.get?_insert]

/-- What holds of the frames after any operations. There are always frames for the globals and for
    locals; the latter hold values only. The globals have names with a dollar sign and begin with
    the system variables. No local is bound in two frames, so that all locals are listed once, and
    asking for one gives what is listed. An assignment to a local changes no other variable. A frame
    that was pushed and dropped leaves the locals that were bound before it, each with the value
    assigned last. A global answers to its name with and without the dollar sign. The scope of a
    run has the same frames and answers alike. -/
theorem every_history_keeps_order (ops : List Scope.Op) :
    let st := initial.after ops
    (2 ≤ st.frames.length ∧ ∀ f ∈ st.localFrames, ∀ slot ∈ f.values, ∃ v, slot = .holding v) ∧
    ((∀ name ∈ st.globals.keys, isGlobalName name = true) ∧
      st.globals.keys.take 12 = SystemVariable.all.map (·.name)) ∧
    ((st.localFrames.Pairwise fun f g => ∀ name ∈ f.keys, name ∉ g.keys) ∧
      (st.locals.map (·.1)).Nodup ∧
      ∀ name, (st.hasLocal name = true ↔ ∃ f ∈ st.localFrames, name ∈ f.keys) ∧
        (st.hasLocal name = true ↔ ∃ v, st.getLocal name = .ok v) ∧
        ∀ v, st.getLocal name = .ok v ↔ (name, v) ∈ st.locals) ∧
    (∀ name v, (st.setLocal name v).getLocal name = .ok v ∧
      (∀ other, other ≠ name → (st.setLocal name v).getLocal other = st.getLocal other) ∧
      (st.setLocal name v).globals = st.globals) ∧
    (∀ middle, Balanced middle →
      let closed := st.after (.pushFrame :: middle ++ [.popFrame])
      ∀ name, closed.hasLocal name = st.hasLocal name ∧
        (st.hasLocal name = true → closed.getLocal name =
          match lastAssigned name middle with
          | some v => .ok v
          | none => st.getLocal name)) ∧
    (∀ name, isGlobalName name = false →
      st.getGlobal ("$" ++ name) = st.getGlobal name ∧
      st.peekGlobal ("$" ++ name) = st.peekGlobal name ∧
      ∀ v, st.setGlobal ("$" ++ name) v = st.setGlobal name v ∧
        (st.setGlobal name v).peekGlobal name = some v ∧
        ((st.setGlobal name v).getGlobal name).1 = v) ∧
    let sc := Scope.initial.after ops
    st = sc.toStack ∧ st.locals = sc.locals ∧ ∀ name, st.getLocal name = sc.getLocal name ∧
      st.hasLocal name = sc.hasLocal name ∧ st.peekGlobal name = sc.peekGlobal name ∧
      (st.getGlobal name).1 = (sc.getGlobal name).1 := by
  intro st
  have shaped : st.Shaped := after_shaped initial_shaped ops
  have orderly := Scope.after_orderly Scope.initial_orderly ops
  have alike : st = (Scope.initial.after ops).toStack := by
    rw [Scope.after_toStack, Scope.initial_toStack]
  generalize Scope.initial.after ops = sc at orderly alike ⊢
  clear_value st
  subst alike
  refine ⟨⟨shaped.two, shaped.assigned⟩, ⟨orderly.globals, ?_⟩,
    ⟨Scope.localFrames_apart orderly, ?_, ?_⟩, ?_, ?_, ?_, rfl, sc.locals_toStack, fun name =>
    ⟨sc.getLocal_toStack name, sc.hasLocal_toStack name, sc.peekGlobal_toStack name, ?_⟩⟩
  · exact (List.prefix_iff_eq_take.mp orderly.system).symm
  · rw [Scope.locals_toStack]
    exact Scope.locals_nodup orderly
  · intro name
    rw [Scope.hasLocal_toStack, Scope.getLocal_toStack, Scope.locals_toStack]
    exact ⟨sc.hasLocal_iff_bound name, sc.hasLocal_iff_getLocal name,
      fun v => (Scope.mem_locals orderly name v).symm⟩
  · intro name v
    obtain ⟨here, others⟩ := sc.getLocal_setLocal name v
    refine ⟨here, others, ?_⟩
    rw [← Scope.setLocal_toStack]
    exact Scope.setLocal_globals
  · intro middle balanced closed name
    exact Scope.locals_closed balanced orderly name
  · intro name plain
    have same := Scope.globalKey_dollar plain
    refine ⟨?_, ?_, fun v => ⟨?_, peekGlobal_setGlobal _ name v, getGlobal_setGlobal _ name v⟩⟩
    · rw [FrameStack.getGlobal, FrameStack.getGlobal, same]
    · rw [peekGlobal, peekGlobal, same]
    · rw [FrameStack.setGlobal, FrameStack.setGlobal, same]
  · rw [Scope.getGlobal_toStack]

theorem every_history_keeps_order_inner :
    let before := [Scope.Op.setLocal "x" (.number 1)]
    let middle := [Scope.Op.setLocal "x" (.number 2), Scope.Op.setLocal "y" (.number 3)]
    let closed := (initial.after before).after (.pushFrame :: middle ++ [.popFrame])
    Balanced middle ∧ closed.getLocal "x" = .ok (.number 2) ∧ closed.hasLocal "y" = false := by
  intro before middle closed
  have balanced : Balanced middle := .plain nofun nofun (.plain nofun nofun .nil)
  have history := (every_history_keeps_order before).2.2.2.2.1 middle balanced
  exact ⟨balanced, (history "x").2 rfl, (history "y").1⟩

end FrameStack
end FlowScript
