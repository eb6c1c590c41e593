import FlowScript.Proofs.Scope.Frames

/-!
The life of a scope: operations one after the other, in any order. At every moment the system
variables come first among the globals, no local is bound in two frames, all ways to ask for a local
agree, and a frame that is dropped takes with it the locals that were new in it, but no assignment
to an older one.
-/
namespace FlowScript.Scope

/-- Reading counts as an operation, since it may give a value to a global. -/
inductive Op where
  | pushFrame
  | popFrame
  | setLocal (name : String) (v : Value)
  | setGlobal (name : String) (v : Value)
  | set (name : String) (v : Value)
  | getLocal (name : String)
  | getGlobal (name : String)
  | get (name : String)
  | setLastError (message : String)

def step (sc : Scope) : Op → Scope
  | .pushFrame => sc.pushFrame
  | .popFrame => sc.popFrame
  | .setLocal name v => sc.setLocal name v
  | .setGlobal name v => sc.setGlobal name v
  | .set name v => sc.set name v
  | .getLocal _ => sc
  | .getGlobal name => (sc.getGlobal name).2
  | .get name => (sc.get name).2
  | .setLastError message => sc.setLastError message

def after (sc : Scope) (ops : List Op) : Scope := ops.foldl step sc

theorem after_append (sc : Scope) (ops more : List Op) :
    sc.after (ops ++ more) = (sc.after ops).after more := List.foldl_append

def localNames (sc : Scope) : List String := sc.frames.flatMap (·.keys)

/-- What holds of a scope at every moment. -/
structure Orderly (sc : Scope) : Prop where
  globals : ∀ name ∈ sc.globals.keys, isGlobalName name = true
  system : SystemVariable.all.map (·.name) <+: sc.globals.keys
  distinct : sc.localNames.Nodup

variable {sc : Scope} {name : String} {v : Value}

theorem isGlobalName_dollar (name : String) : isGlobalName ("$" ++ name) = true := by
  simp [isGlobalName, String.toList_append]

theorem isGlobalName_globalKey (name : String) : isGlobalName (globalKey name) = true := by
  unfold globalKey
  split
  · assumption
  · exact isGlobalName_dollar name

theorem globalKey_dollar (plain : isGlobalName name = false) :
    globalKey ("$" ++ name) = globalKey name := by
  simp [globalKey, isGlobalName_dollar, plain]

theorem Orderly.insertGlobal (orderly : sc.Orderly) (slot : Slot) (named : isGlobalName name = true) :
    { sc with globals := sc.globals.insert name slot }.Orderly where
  globals := by
    intro other there
    rw [Entries.keys_insert] at there
    split at there
    · exact orderly.globals other there
    · rcases List.mem_append.mp there with old | new
      · exact orderly.globals other old
      · rwa [List.mem_singleton.mp new]
  system := by
    rw [Entries.keys_insert]
    split
    · exact orderly.system
    · exact orderly.system.trans (List.prefix_append _ _)
  distinct := orderly.distinct

theorem Orderly.setGlobal (orderly : sc.Orderly) (name : String) (v : Value) :
    (sc.setGlobal name v).Orderly :=
  orderly.insertGlobal _ (isGlobalName_globalKey name)

theorem Orderly.getGlobal (orderly : sc.Orderly) (name : String) :
    (sc.getGlobal name).2.Orderly := by
  unfold Scope.getGlobal
  dsimp only
  split
  · exact orderly
  · exact orderly.insertGlobal _ (isGlobalName_globalKey name)

theorem keys_setLocal (sc : Scope) (name : String) (v : Value) :
    (sc.setLocal name v).frames.map (·.keys) = sc.frames.map (·.keys) ∨
    (name ∉ sc.localNames ∧ (sc.setLocal name v).frames.map (·.keys) =
      (sc.frame.keys ++ [name]) :: sc.outer.map (·.keys)) := by
  rcases setLocal_cases sc name v with ⟨inner, f, rest, split, _, there, after⟩ | ⟨free, after⟩
  · left
    rw [after, split]
    simp [Entries.keys_insert_of_mem v (Entries.contains_iff.mp there)]
  · right
    have new : name ∉ sc.localNames := by
      intro bound
      obtain ⟨f, listed, there⟩ := List.mem_flatMap.mp bound
      exact Entries.contains_eq_false.mp (free f listed) there
    have here : name ∉ sc.frame.keys := Entries.contains_eq_false.mp (free _ (by simp [frames]))
    refine ⟨new, ?_⟩
    rw [after, List.map_cons, Entries.keys_insert, if_neg here]

theorem Orderly.setLocal (orderly : sc.Orderly) (name : String) (v : Value) :
    (sc.setLocal name v).Orderly where
  globals := by simpa using orderly.globals
  system := by simpa using orderly.system
  distinct := by
    have distinct := orderly.distinct
    unfold localNames at *
    rcases keys_setLocal sc name v with same | ⟨new, added⟩
    · rw [List.flatMap_def, same, ← List.flatMap_def]
      exact distinct
    · rw [List.flatMap_def, added, List.flatten_cons, ← List.flatMap_def, List.append_assoc,
        List.singleton_append, List.perm_middle.nodup_iff]
      exact List.nodup_cons.mpr ⟨new, distinct⟩

theorem Orderly.pushFrame (orderly : sc.Orderly) : sc.pushFrame.Orderly :=
  ⟨orderly.globals, orderly.system, orderly.distinct⟩

theorem Orderly.popFrame (orderly : sc.Orderly) : sc.popFrame.Orderly := by
  unfold Scope.popFrame
  split
  · exact orderly
  · rename_i f rest outer
    refine ⟨orderly.globals, orderly.system, ?_⟩
    have distinct := orderly.distinct
    rw [localNames, frames, outer, List.flatMap_cons] at distinct
    exact (List.nodup_append.mp distinct).2.1

theorem step_orderly (orderly : sc.Orderly) (op : Op) : (sc.step op).Orderly := by
  cases op with
  | pushFrame => exact orderly.pushFrame
  | popFrame => exact orderly.popFrame
  | setLocal name v => exact orderly.setLocal name v
  | setGlobal name v => exact orderly.setGlobal name v
  | set name v =>
    rw [step, Scope.set]
    split
    · exact orderly.setGlobal name v
    · exact orderly.setLocal name v
  | getLocal name => exact orderly
  | getGlobal name => exact orderly.getGlobal name
  | get name =>
    rw [step, Scope.get]
    split
    · exact orderly.getGlobal name
    · exact orderly
  | setLastError message => exact ⟨orderly.globals, orderly.system, orderly.distinct⟩

theorem keys_initial : initial.globals.keys = SystemVariable.all.map (·.name) := by
  have names : systemSlots.map (·.1) = SystemVariable.all.map (·.name) := by simp [systemSlots]
  have distinct : (systemSlots.map (·.1)).Nodup := by
    rw [names]
    simp [SystemVariable.all, SystemVariable.maxIterations]
  rw [← names, Entries.keys, initial, Entries.toList_ofList distinct]

theorem initial_orderly : initial.Orderly := by
  constructor
  · rw [keys_initial]
    simp [SystemVariable.all, SystemVariable.maxIterations, isGlobalName]
  · rewrite [keys_initial]
    exact List.prefix_rfl
  · simp [localNames, initial, frames, Entries.keys, Entries.empty]

theorem after_orderly (orderly : sc.Orderly) (ops : List Op) : (sc.after ops).Orderly := by
  induction ops generalizing sc with
  | nil => exact orderly
  | cons op rest ih => exact ih (step_orderly orderly op)

theorem local?_eq_lookup (sc : Scope) (name : String) :
    sc.local? name = (sc.frames.flatMap (·.toList)).lookup name := by
  unfold local?
  induction sc.frames with
  | nil => rfl
  | cons f rest ih =>
    rw [List.findSome?_cons, List.flatMap_cons, List.lookup_append, ← ih]
    change _ = (f.get? name).or _
    cases f.get? name <;> rfl

theorem localNames_eq_map (sc : Scope) :
    sc.localNames = (sc.frames.flatMap (·.toList)).map (·.1) := by
  rw [List.map_flatMap]
  rfl

theorem locals_eq (orderly : sc.Orderly) : sc.locals = sc.frames.reverse.flatMap (·.toList) := by
  apply Entries.toList_ofList
  have shuffled := (List.reverse_perm sc.frames).flatMap_right (·.toList)
  rw [(shuffled.map (·.1)).nodup_iff, ← localNames_eq_map]
  exact orderly.distinct

theorem mem_locals (orderly : sc.Orderly) (name : String) (v : Value) :
    (name, v) ∈ sc.locals ↔ sc.getLocal name = .ok v := by
  have distinct := orderly.distinct
  rw [localNames_eq_map] at distinct
  rw [getLocal_eq_ok, local?_eq_lookup, lookup_eq_some_of_nodup distinct, locals_eq orderly]
  simp

theorem locals_nodup (orderly : sc.Orderly) : (sc.locals.map (·.1)).Nodup := by
  have shuffled := (List.reverse_perm sc.frames).flatMap_right (·.toList)
  rw [locals_eq orderly, (shuffled.map (·.1)).nodup_iff, ← localNames_eq_map]
  exact orderly.distinct

theorem hasLocal_iff_getLocal (sc : Scope) (name : String) :
    sc.hasLocal name = true ↔ ∃ v, sc.getLocal name = .ok v := by
  simp only [getLocal_eq_ok, ← isSome_local?, Option.isSome_iff_exists]

/-- Every frame that is pushed is dropped again, and none besides. -/
inductive Balanced : List Op → Prop where
  | nil : Balanced []
  | plain {op : Op} {rest : List Op} (noPush : op ≠ .pushFrame) (noPop : op ≠ .popFrame)
      (later : Balanced rest) : Balanced (op :: rest)
  | nested {inner rest : List Op} (inside : Balanced inner) (later : Balanced rest) :
      Balanced (.pushFrame :: inner ++ .popFrame :: rest)

def Op.assigned? (name : String) : Op → Option Value
  | setLocal n v => if n = name then some v else none
  | set n v => if n = name ∧ isGlobalName n = false then some v else none
  | _ => none

/-- The value that the local was assigned last. -/
def lastAssigned (name : String) (ops : List Op) : Option Value :=
  ops.reverse.findSome? (·.assigned? name)

theorem lastAssigned_append (name : String) (ops more : List Op) :
    lastAssigned name (ops ++ more) = (lastAssigned name more).or (lastAssigned name ops) := by
  simp [lastAssigned, List.findSome?_append]

theorem lastAssigned_cons (name : String) (op : Op) (rest : List Op) :
    lastAssigned name (op :: rest) = (lastAssigned name rest).or (op.assigned? name) := by
  rw [← List.singleton_append, lastAssigned_append]
  cases found : op.assigned? name <;> simp [lastAssigned, found]

/-- The frames below the innermost one have the names that they had, and it has them too. -/
def Extends (sc later : Scope) : Prop :=
  later.outer.map (·.keys) = sc.outer.map (·.keys) ∧ sc.frame.keys <+: later.frame.keys

theorem Extends.refl (sc : Scope) : sc.Extends sc := ⟨rfl, List.prefix_rfl⟩

theorem Extends.trans {middle later : Scope} (first : sc.Extends middle)
    (second : middle.Extends later) : sc.Extends later :=
  ⟨second.1.trans first.1, first.2.trans second.2⟩

theorem extends_of_frames {later : Scope} (same : later.frames = sc.frames) : sc.Extends later := by
  have both := List.cons.inj same
  rw [Extends, both.1, both.2]
  exact ⟨rfl, List.prefix_rfl⟩

theorem extends_setLocal (sc : Scope) (name : String) (v : Value) :
    sc.Extends (sc.setLocal name v) := by
  rcases keys_setLocal sc name v with same | ⟨_, added⟩
  · obtain ⟨here, below⟩ := List.cons.inj same
    exact ⟨below, [], (List.append_nil _).trans here.symm⟩
  · obtain ⟨here, below⟩ := List.cons.inj added
    exact ⟨below, [name], here.symm⟩

theorem extends_step {op : Op} (noPush : op ≠ .pushFrame) (noPop : op ≠ .popFrame) :
    sc.Extends (sc.step op) := by
  cases op with
  | pushFrame => exact absurd rfl noPush
  | popFrame => exact absurd rfl noPop
  | setLocal name v => exact extends_setLocal sc name v
  | set name v =>
    rw [step, Scope.set]
    split
    · exact extends_of_frames rfl
    · exact extends_setLocal sc name v
  | getGlobal name => exact extends_of_frames getGlobal_frames
  | get name =>
    rw [step, Scope.get]
    split
    · exact extends_of_frames getGlobal_frames
    · exact .refl sc
  | _ => exact extends_of_frames rfl

theorem keys_popFrame {later : Scope} (extended : sc.pushFrame.Extends later) :
    later.popFrame.frames.map (·.keys) = sc.frames.map (·.keys) := by
  have below : later.outer.map (·.keys) = sc.frames.map (·.keys) := extended.1
  unfold popFrame
  split
  · rename_i none
    simp [none, frames] at below
  · rename_i f rest outer
    rw [outer] at below
    exact below

theorem Balanced.extends {ops : List Op} (balanced : Balanced ops) (sc : Scope) :
    sc.Extends (sc.after ops) := by
  induction balanced generalizing sc with
  | nil => exact .refl sc
  | plain noPush noPop _ ih => exact (extends_step noPush noPop).trans (ih _)
  | @nested inner rest _ _ inside later =>
    have popped := keys_popFrame (inside sc.pushFrame)
    obtain ⟨here, below⟩ := List.cons.inj popped
    have returned : sc.Extends (sc.pushFrame.after inner).popFrame :=
      ⟨below, [], (List.append_nil _).trans here.symm⟩
    have split : sc.after (.pushFrame :: inner ++ .popFrame :: rest) =
        (sc.pushFrame.after inner).popFrame.after rest := after_append sc.pushFrame inner _
    rw [split]
    exact returned.trans (later _)

theorem hasLocal_congr {later : Scope}
    (same : later.frames.map (·.keys) = sc.frames.map (·.keys)) (name : String) :
    later.hasLocal name = sc.hasLocal name := by
  have there (s : Scope) : s.hasLocal name = (s.frames.map (·.keys)).any (·.contains name) := by
    rw [hasLocal, List.any_map]
    congr 1
    funext f
    rw [Bool.eq_iff_iff, Entries.contains_iff, Function.comp_apply, List.contains_iff_mem]
  rw [there, there, same]

theorem local?_step (sc : Scope) {op : Op} (noPush : op ≠ .pushFrame) (noPop : op ≠ .popFrame)
    (name : String) : (sc.step op).local? name = (op.assigned? name).or (sc.local? name) := by
  have kept {later : Scope} (same : later.frames = sc.frames) :
      later.local? name = sc.local? name := by rw [local?, local?, same]
  cases op with
  | pushFrame => exact absurd rfl noPush
  | popFrame => exact absurd rfl noPop
  | setLocal n v =>
    rw [step, local?_setLocal, Op.assigned?]
    by_cases same : n = name
    · simp [same]
    · simp [same, Ne.symm same]
  | set n v =>
    rw [step, Scope.set, Op.assigned?]
    cases named : isGlobalName n with
    | true => simp [kept setGlobal_frames]
    | false =>
      rw [if_neg (by simp), local?_setLocal]
      by_cases same : n = name
      · simp [same]
      · simp [same, Ne.symm same]
  | getGlobal n => exact kept getGlobal_frames
  | get n =>
    rw [step, Scope.get]
    split
    · exact kept getGlobal_frames
    · rfl
  | _ => exact kept rfl

/-- What is bound below the innermost frame is not bound in it, so dropping it uncovers nothing. -/
theorem local?_popFrame (orderly : sc.Orderly) (below : ∃ f ∈ sc.outer, name ∈ f.keys) :
    sc.popFrame.local? name = sc.local? name := by
  have distinct := orderly.distinct
  rw [localNames, frames, List.flatMap_cons, List.nodup_append] at distinct
  have free : sc.frame.get? name = none := by
    apply Entries.get?_eq_none
    rw [Entries.contains_eq_false]
    intro here
    exact distinct.2.2 name here name (List.mem_flatMap.mpr below) rfl
  unfold popFrame
  split
  · rfl
  · rename_i f rest outer
    simp only [local?, frames, outer, List.findSome?_cons (a := sc.frame), free]

theorem Balanced.local? {ops : List Op} (balanced : Balanced ops) (orderly : sc.Orderly)
    (bound : sc.hasLocal name = true) :
    (sc.after ops).local? name = (lastAssigned name ops).or (sc.local? name) := by
  induction balanced generalizing sc with
  | nil => rfl
  | @plain op rest noPush noPop _ ih =>
    have value := local?_step sc noPush noPop name
    have still : (sc.step op).hasLocal name = true := by
      rw [← isSome_local?, value, Option.isSome_or, isSome_local?, bound, Bool.or_true]
    change ((sc.step op).after rest).local? name = _
    rw [ih (step_orderly orderly op) still, value, lastAssigned_cons, Option.or_assoc]
  | @nested inner rest within _ inside later =>
    -- the local is bound below the new frame, where its value survives
    have extended := within.extends sc.pushFrame
    have ended := after_orderly orderly.pushFrame inner
    have below : ∃ f ∈ (sc.pushFrame.after inner).outer, name ∈ f.keys := by
      obtain ⟨f, listed, there⟩ := hasLocal_iff.mp bound
      have known : f.keys ∈ (sc.pushFrame.after inner).outer.map (·.keys) :=
        extended.1 ▸ List.mem_map_of_mem listed
      obtain ⟨g, member, same⟩ := List.mem_map.mp known
      exact ⟨g, member, same ▸ there⟩
    have still : (sc.pushFrame.after inner).popFrame.hasLocal name = true :=
      (hasLocal_congr (keys_popFrame extended) name).trans bound
    have split : sc.after (.pushFrame :: inner ++ .popFrame :: rest) =
        (sc.pushFrame.after inner).popFrame.after rest := after_append sc.pushFrame inner _
    rw [split, later ended.popFrame still, local?_popFrame ended below,
      inside orderly.pushFrame bound, lastAssigned_append, lastAssigned_cons, lastAssigned_cons]
    have opened : sc.pushFrame.local? name = sc.local? name := rfl
    simp only [opened, Op.assigned?, Option.or_none, Option.or_assoc]

theorem hasLocal_closed {middle : List Op} (balanced : Balanced middle) (sc : Scope) (name : String) :
    (sc.after (.pushFrame :: middle ++ [.popFrame])).hasLocal name = sc.hasLocal name := by
  have split : sc.after (.pushFrame :: middle ++ [.popFrame]) =
      (sc.pushFrame.after middle).popFrame := after_append sc.pushFrame middle _
  rw [split]
  exact hasLocal_congr (keys_popFrame (balanced.extends sc.pushFrame)) name

theorem getLocal_closed {middle : List Op} (balanced : Balanced middle) (orderly : sc.Orderly)
    (bound : sc.hasLocal name = true) :
    (sc.after (.pushFrame :: middle ++ [.popFrame])).getLocal name =
      match lastAssigned name middle with
      | some v => .ok v
      | none => sc.getLocal name := by
  have value := (Balanced.nested balanced .nil).local? orderly bound
  rw [lastAssigned_append, lastAssigned_cons, lastAssigned_cons] at value
  simp only [Op.assigned?, Option.or_none] at value
  rw [getLocal, value]
  cases lastAssigned name middle <;> rfl

end FlowScript.Scope
