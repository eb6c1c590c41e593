import FlowScript.Proofs.Evaluation.Layer

/-!
Whole runs: programs one after the other on one machine. Main statement: when no container of the
machine reaches itself, none does at any evaluation of the run, whether it succeeds or fails.
-/
namespace FlowScript

namespace Program

/-- The statements that a program comes to, each with the machine that it is evaluated on. -/
def statementsFrom (l : Library) (index : Nat) : Program → Machine → List (Expr × Machine)
  | [], _ => []
  | e :: rest, m =>
    let start := m.report (.statement index e.kindName)
    (e, start) ::
      match e.eval l start with
      | (.ok _, n) => statementsFrom l (index + 1) rest n
      | (.error _, _) => []

def runAll (l : Library) (ps : List Program) (m : Machine) : Machine :=
  ps.foldl (fun m p => (p.run l m).2) m

def statements (l : Library) : List Program → Machine → List (Expr × Machine)
  | [], _ => []
  | p :: rest, m => statementsFrom l 0 p m ++ statements l rest (p.run l m).2

variable {l : Library} {m : Machine}

theorem runFrom_sound (library : l.Sound) (index : Nat) (last : Value) (p : Program)
    (sound : m.Sound) : (p.runFrom l index last m).2.Sound := by
  induction p generalizing index last m with
  | nil => exact sound
  | cons e rest ih =>
    have after := (Expr.eval_sound library e _ (sound.report (.statement index e.kindName))).1
    unfold runFrom
    split
    · rename_i v n run
      rw [run] at after
      exact ih (index + 1) v after
    · rename_i err n run
      rw [run] at after
      exact (after.report _).setScope (after.scope.setLastError _)

theorem statementsFrom_sound (library : l.Sound) (index : Nat) (p : Program) (sound : m.Sound) :
    ∀ q ∈ statementsFrom l index p m, q.2.Sound := by
  induction p generalizing index m with
  | nil => simp [statementsFrom]
  | cons e rest ih =>
    have start := sound.report (.statement index e.kindName)
    have after := (Expr.eval_sound library e _ start).1
    refine List.forall_mem_cons.mpr ⟨start, ?_⟩
    split
    · rename_i v n run
      rw [run] at after
      exact ih (index + 1) after
    · simp

theorem runAll_sound (library : l.Sound) (ps : List Program) (sound : m.Sound) :
    (runAll l ps m).Sound := by
  induction ps generalizing m with
  | nil => exact sound
  | cons p rest ih => exact ih (runFrom_sound library 0 .null p sound)

theorem statements_sound (library : l.Sound) (ps : List Program) (sound : m.Sound) :
    ∀ q ∈ statements l ps m, q.2.Sound := by
  induction ps generalizing m with
  | nil => simp [statements]
  | cons p rest ih =>
    refine List.forall_mem_append.mpr ⟨statementsFrom_sound library 0 p sound, ?_⟩
    exact ih (runFrom_sound library 0 .null p sound)

end Program

/-- Whatever becomes of the computation, an acyclic store stays so. -/
def Eval.KeepsAcyclic {α : Type} (x : Eval α) : Prop :=
  ∀ m, m.store.Acyclic → (x m).2.store.Acyclic

namespace Eval

variable {α β : Type} {x : Eval α} {f : α → Eval β}

theorem KeepsAcyclic.bind (first : x.KeepsAcyclic) (next : ∀ a, (f a).KeepsAcyclic) :
    (x >>= f).KeepsAcyclic := by
  intro m acyclic
  have after := first m acyclic
  rw [bind_apply]
  cases run : x m with
  | mk r n =>
    rw [run] at after
    cases r with
    | error e => exact after
    | ok a => exact next a n after

theorem keepsAcyclic_assignMember (object key : Value) (op : AssignOp) (rhs : Value) :
    (assignMember object key op rhs).KeepsAcyclic := by
  intro m acyclic
  have after := Member.assign_acyclic acyclic object key op rhs
  unfold assignMember
  cases run : Member.assign m.store object key op rhs with
  | mk r t =>
    rw [run] at after
    cases r with
    | error e => exact after
    | ok written => cases written <;> exact after

theorem keepsAcyclic_binary (op : BinaryOp) (a b : Value) : (binary op a b).KeepsAcyclic := by
  intro m acyclic
  unfold binary
  cases done : Operator.binary m.store op a b with
  | error e => exact acyclic
  | ok p => exact Operator.binary_acyclic acyclic done

theorem keepsAcyclic_combine (op : AssignOp) (current rhs : Value) :
    (combine op current rhs).KeepsAcyclic := by
  intro m acyclic
  unfold combine
  cases done : Operator.combine m.store op current rhs with
  | error e => exact acyclic
  | ok p => exact Operator.combine_acyclic acyclic done

end Eval

namespace Library

theorem keepsAcyclic_textArg (args : List Value) (i : Nat) : (textArg args i).KeepsAcyclic := by
  unfold textArg
  split <;> exact fun _ acyclic => acyclic

theorem keepsAcyclic_follow (v : Value) (path : List Value) : (follow v path).KeepsAcyclic := by
  induction path generalizing v with
  | nil => exact fun _ acyclic => acyclic
  | cons key rest ih =>
    have read : (Eval.readMember v key).KeepsAcyclic := fun _ acyclic => acyclic
    exact read.bind ih

theorem keepsAcyclic_setByName (args : List Value) : (setByName args).KeepsAcyclic := by
  apply (keepsAcyclic_textArg args 0).bind
  intro name
  dsimp only
  split
  · exact fun _ acyclic => acyclic
  · have outermost : (variableNamed name).KeepsAcyclic := by
      unfold variableNamed
      split <;> exact fun _ acyclic => acyclic
    apply outermost.bind
    intro v
    apply (keepsAcyclic_follow v _).bind
    intro container
    exact Eval.keepsAcyclic_assignMember container _ .assign _

theorem keepsAcyclic_addEntry (args : List Value) : (addEntry args).KeepsAcyclic := by
  have dictionary : (dictionaryArg "AddToDict" args).KeepsAcyclic := by
    unfold dictionaryArg
    split <;> exact fun _ acyclic => acyclic
  have key : (keyArg args).KeepsAcyclic := fun _ acyclic => acyclic
  apply dictionary.bind
  intro h
  apply key.bind
  intro name m acyclic
  simp only [Eval.bind_apply, Eval.store, Eval.ofExcept]
  cases free : Member.rejectCycle m.store (.dictionary h) (valueArg args 2) with
  | error e => exact acyclic
  | ok _ => exact Member.insert_acyclic name acyclic free

end Library

namespace Program

/-- On a machine without cycles, programs run one after the other never make one: not at any
    evaluation that they come to, before it or after it, whether it succeeds or fails, nor at their
    end. Each way to write to a container keeps an acyclic store acyclic by itself. -/
theorem run_stays_acyclic {m : Machine} (closed : m.Closed) (acyclic : m.store.Acyclic)
    (ps : List Program) :
    (∀ q ∈ statements Library.standard ps m, q.1.Throughout Library.standard
      (fun e n => n.store.Acyclic ∧ (e.eval Library.standard n).2.store.Acyclic) q.2) ∧
    (runAll Library.standard ps m).store.Acyclic ∧
    (∀ object key op rhs, (Eval.assignMember object key op rhs).KeepsAcyclic) ∧
    (∀ op a b, (Eval.binary op a b).KeepsAcyclic) ∧
    (∀ args, (Library.setByName args).KeepsAcyclic) ∧
    ∀ args, (Library.addEntry args).KeepsAcyclic := by
  have library := Library.standard_sound
  have sound := closed.sound acyclic
  refine ⟨?_, (runAll_sound library ps sound).store.acyclic, Eval.keepsAcyclic_assignMember,
    Eval.keepsAcyclic_binary, Library.keepsAcyclic_setByName, Library.keepsAcyclic_addEntry⟩
  intro q listed
  have here := statements_sound library ps sound q listed
  refine Expr.throughout_of_sound library ?_ q.1 here
  intro e n before
  have after := (Expr.eval_sound library e n before).1
  exact ⟨before.store.acyclic, after.store.acyclic⟩

def hosted (t : String) : Machine :=
  let m := Machine.initial {} ⟨⟨2024, 1, 1⟩, 0, 0⟩
  { m with
    store := (m.store.newArray [.text t]).2
    scope := m.scope.setGlobal "x" (.array 0) }

theorem hosted_sound (t : String) : (hosted t).Sound := by
  have start := Machine.initial_sound {} ⟨⟨2024, 1, 1⟩, 0, 0⟩
  have after := Store.sound_newArray start.store
    (show ∀ v ∈ [Value.text t], Store.Knows _ v by simp [Store.Knows])
  have filled := start.setStore after (Store.grows_newArray _ _)
  exact filled.setScope (start.scope.grown (Store.grows_newArray _ _) |>.setGlobal "x"
    (by simp [Store.Knows, Store.newArray]))

def twiceInPlace : Program :=
  [.assign (.globalVar "$y") .assign
    (.binary (.array [.globalVar "$x", .globalVar "$x"]) .add (.array [.text "b", .text "c"]))]

theorem run_stays_acyclic_twiceInPlace :
    (hosted "a").Closed ∧ (hosted "a").store.Acyclic ∧
      (runAll Library.standard [twiceInPlace] (hosted "a")).store.items 0 = [.text "ac"] ∧
      (runAll Library.standard [twiceInPlace] (hosted "a")).store.Acyclic := by
  have sound := hosted_sound "a"
  refine ⟨sound.closed, sound.store.acyclic, ?_, ?_⟩
  · rfl
  · exact (run_stays_acyclic sound.closed sound.store.acyclic [twiceInPlace]).2.1

end Program
end FlowScript
