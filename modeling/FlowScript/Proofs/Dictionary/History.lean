import FlowScript.Proofs.Library.ByName

/-!
Dictionaries over time. Assignments, the functions that add and remove, and all ways of reading go
by the texts of their keys, whatever the keys are. Main statement: after any history of requests, a
dictionary holds what was stored last under each key and not removed since, and lists its keys in
the order in which they were last new.
-/
namespace FlowScript

namespace Entries

variable {α : Type}

theorem keys_erase (e : Entries α) (name : String) : (e.erase name).keys = e.keys.erase name := by
  rw [List.erase_eq_eraseP', keys, erase, keys, List.eraseP_map]
  rfl

theorem get?_erase {e : Entries α} (distinct : e.keys.Nodup) (name other : String) :
    (e.erase name).get? other = if other = name then none else e.get? other := by
  obtain ⟨pairs⟩ := e
  simp only [keys, erase, get?] at *
  induction pairs with
  | nil => simp
  | cons p rest ih =>
    obtain ⟨n, v⟩ := p
    rw [List.map_cons, List.nodup_cons] at distinct
    by_cases first : n = name
    · subst first
      by_cases same : other = n
      · subst same
        have gone : (⟨rest⟩ : Entries α).get? other = none :=
          get?_eq_none (contains_eq_false.mpr distinct.1)
        simpa [get?] using gone
      · simp [same, List.lookup_cons, beq_eq_false_iff_ne.mpr same]
    · by_cases same : other = n
      · subst same
        simp [first]
      · simp only [List.eraseP_cons, beq_eq_false_iff_ne.mpr first, List.lookup_cons,
          beq_eq_false_iff_ne.mpr same, cond_false]
        exact ih distinct.2

end Entries

namespace Dictionary

inductive Change where
  | store (name : String) (v : Value)
  | drop (name : String)
  deriving Repr

def Change.apply : Change → Entries Value → Entries Value
  | store name v, e => e.insert name v
  | drop name, e => e.erase name

/-- What was stored last under a name, unless it was removed since. -/
def latest (name : String) : List Change → Option Value
  | [] => none
  | .store n v :: before => if n = name then some v else latest name before
  | .drop n :: before => if n = name then none else latest name before

/-- When a name was last new, as the number of changes before. -/
def inserted (name : String) : List Change → Nat
  | [] => 0
  | .store n _ :: before =>
    if n = name ∧ latest name before = none then before.length else inserted name before
  | .drop _ :: before => inserted name before

theorem inserted_lt {name : String} {changes : List Change}
    (there : latest name changes ≠ none) : inserted name changes < changes.length := by
  induction changes with
  | nil => exact absurd rfl there
  | cons change before ih =>
    rw [List.length_cons]
    cases change with
    | store n v =>
      rw [inserted]
      split
      · exact Nat.lt_succ_self _
      · rename_i old
        have earlier : latest name before ≠ none := by
          intro gone
          by_cases same : n = name
          · exact old ⟨same, gone⟩
          · rw [latest, if_neg same] at there
            exact there gone
        exact Nat.lt_succ_of_lt (ih earlier)
    | drop n =>
      rw [latest] at there
      split at there
      · exact absurd rfl there
      · exact Nat.lt_succ_of_lt (ih there)

structure Follows (e : Entries Value) (changes : List Change) : Prop where
  get : ∀ name, e.get? name = latest name changes
  order : e.keys.Pairwise fun a b => inserted a changes < inserted b changes

namespace Follows

variable {e : Entries Value} {changes : List Change}

theorem distinct (follows : Follows e changes) : e.keys.Nodup := by
  apply follows.order.imp
  intro a b before same
  exact absurd before (same ▸ Nat.lt_irrefl _)

theorem mem_keys (follows : Follows e changes) {name : String} :
    name ∈ e.keys ↔ latest name changes ≠ none := by
  rw [← Entries.contains_iff, Entries.contains, follows.get, Option.isSome_iff_ne_none]

theorem store (follows : Follows e changes) (name : String) (v : Value) :
    Follows (e.insert name v) (.store name v :: changes) := by
  constructor
  · intro other
    rw [Entries.get?_insert, latest, follows.get]
    simp only [eq_comm]
  · -- names that are there keep their time, and a new one comes after all of them
    have kept {a : String} (there : a ∈ e.keys) :
        inserted a (.store name v :: changes) = inserted a changes := by
      rw [inserted, if_neg (fun new => follows.mem_keys.mp there new.2)]
    have old : e.keys.Pairwise fun a b =>
        inserted a (.store name v :: changes) < inserted b (.store name v :: changes) := by
      apply follows.order.imp_of_mem
      intro a b first second before
      rwa [kept first, kept second]
    rw [Entries.keys_insert]
    split
    · exact old
    · rename_i new
      have last : inserted name (.store name v :: changes) = changes.length := by
        rw [inserted, if_pos ⟨rfl, not_not.mp (new ∘ follows.mem_keys.mpr)⟩]
      rw [List.pairwise_append]
      refine ⟨old, List.pairwise_singleton _ _, ?_⟩
      intro a there b single
      rw [List.mem_singleton.mp single, last, kept there]
      exact inserted_lt (follows.mem_keys.mp there)

theorem drop (follows : Follows e changes) (name : String) :
    Follows (e.erase name) (.drop name :: changes) := by
  constructor
  · intro other
    rw [Entries.get?_erase follows.distinct, latest, follows.get]
    simp only [eq_comm]
  · rw [Entries.keys_erase]
    exact follows.order.sublist List.erase_sublist

theorem apply (follows : Follows e changes) (more : List Change) :
    Follows (more.foldr Change.apply e) (more ++ changes) := by
  induction more with
  | nil => exact follows
  | cons change before ih =>
    cases change with
    | store name v => exact ih.store name v
    | drop name => exact ih.drop name

theorem empty : Follows .empty [] := ⟨fun _ => rfl, List.Pairwise.nil⟩

end Follows

def origin (e : Entries Value) : List Change := (e.toList.map fun p => .store p.1 p.2).reverse

theorem follows_origin {e : Entries Value} (distinct : e.keys.Nodup) : Follows e (origin e) := by
  have follows := Follows.empty.apply (origin e)
  have same : (origin e).foldr Change.apply .empty = e := by
    rw [origin, List.foldr_reverse, List.foldl_map]
    exact congrArg Entries.mk (Entries.toList_ofList distinct)
  rwa [same, List.append_nil] at follows

inductive Request where
  | assign (key : Value) (op : AssignOp) (rhs : Value)
  | add (key v : Value)
  | remove (key : Value)
  | read (key : Value)
  | has (key : Value)
  | keys

namespace Request

def run (h : Handle) : Request → Eval Value
  | assign key op rhs => Eval.assignMember (.dictionary h) key op rhs
  | add key v => Library.callWith "AddToDict" [.dictionary h, key, v]
  | remove key => Library.callWith "RemoveKey" [.dictionary h, key]
  | read key => Eval.readMember (.dictionary h) key
  | has key => Library.callWith "HasKey" [.dictionary h, key]
  | keys => Library.callWith "GetKeys" [.dictionary h]

def changeAt (key : Value) (change : String → Change) : List Change :=
  match Member.keyText key with
  | .ok name => [change name]
  | .error _ => []

/-- What a request has changed that was answered so. Assignments answer with what they stored. -/
def changes (answer : Value) : Request → List Change
  | assign key _ _ => changeAt key fun name => .store name answer
  | add key v => changeAt key fun name => .store name v
  | remove key => changeAt key .drop
  | read _ | has _ | keys => []

def key? : Request → Option Value
  | assign key _ _ | add key _ | remove key | read key | has key => some key
  | keys => none

theorem bind_named {key : Value} {name : String} (named : Member.keyText key = .ok name)
    (use : String → Eval Value) (m : Machine) :
    (Eval.ofExcept (Member.keyText key) >>= use) m = use name m := by
  rw [Eval.bind_apply, named]
  rfl

theorem bind_refused {key : Value} {e : RunError} (refused : Member.keyText key = .error e)
    (use : String → Eval Value) (m : Machine) :
    (Eval.ofExcept (Member.keyText key) >>= use) m = (.error e, m) := by
  rw [Eval.bind_apply, refused]
  rfl

section Answers

variable (h : Handle) (key v : Value) (m : Machine)

theorem run_add_eq : (add key v).run h m =
    Library.addEntry [.dictionary h, key, v] (m.report (.calling "AddToDict" 3)) :=
  Library.callWith_immediate rfl rfl rfl rfl m rfl

theorem run_remove_eq : (remove key).run h m =
    Library.removeEntry [.dictionary h, key] (m.report (.calling "RemoveKey" 2)) :=
  Library.callWith_immediate rfl rfl rfl rfl m rfl

theorem run_has_eq : (has key).run h m =
    Library.hasEntry [.dictionary h, key] (m.report (.calling "HasKey" 2)) :=
  Library.callWith_immediate rfl rfl rfl rfl m rfl

theorem run_keys : keys.run h m =
    Eval.newArray ((m.store.entries h).keys.map .text) (m.report (.calling "GetKeys" 1)) := by
  have called : keys.run h m = Library.entryKeys [.dictionary h] _ :=
    Library.callWith_immediate rfl rfl rfl rfl m rfl
  exact called

variable {key} {name : String} (named : Member.keyText key = .ok name)

include named

theorem run_assign (op : AssignOp) (rhs : Value) :
    (assign key op rhs).run h m =
      match Operator.combine m.store op (((m.store.entries h).get? name).getD .null) rhs with
      | .error e => (.error e, m)
      | .ok (next, t) =>
        if t.holds next (.dictionary h) then
          (.error (.cyclicReference .dictionary), { m with store := t })
        else (.ok next, { m with store := t.setEntries h ((t.entries h).insert name next) }) := by
  simp only [run, Eval.assignMember, Member.assign, named]
  cases Operator.combine m.store op (((m.store.entries h).get? name).getD .null) rhs with
  | error e => rfl
  | ok combined =>
    obtain ⟨next, t⟩ := combined
    simp only [Member.store_eq]
    by_cases cycle : t.holds next (.dictionary h) = true <;> simp only [cycle] <;> rfl

theorem run_add :
    (add key v).run h m =
      if m.store.holds v (.dictionary h) then
        (.error (.cyclicReference .dictionary), m.report (.calling "AddToDict" 3))
      else
        (.ok (.bool !(m.store.entries h).contains name),
          { m.report (.calling "AddToDict" 3) with
            store := m.store.setEntries h ((m.store.entries h).insert name v) }) := by
  rw [(run_add_eq h key v m).trans (bind_named named _ _)]
  change (Eval.ofExcept (Member.rejectCycle m.store (.dictionary h) v) >>= _) (m.report _) = _
  rw [Eval.bind_apply, Member.rejectCycle]
  by_cases cycle : m.store.holds v (.dictionary h) = true <;> simp only [cycle] <;> rfl

theorem run_remove :
    (remove key).run h m =
      (.ok (.bool ((m.store.entries h).contains name)),
        { m.report (.calling "RemoveKey" 2) with
          store := m.store.setEntries h ((m.store.entries h).erase name) }) :=
  (run_remove_eq h key m).trans (bind_named named _ _)

theorem run_has :
    (has key).run h m =
      (.ok (.bool ((m.store.entries h).contains name)), m.report (.calling "HasKey" 2)) :=
  (run_has_eq h key m).trans (bind_named named _ _)

theorem run_read :
    (read key).run h m = (.ok (((m.store.entries h).get? name).getD .null), m) := by
  simp only [run, Eval.readMember, Member.read, named]

end Answers

variable {h : Handle} {key answer : Value} {r : Request} {m n : Machine}

theorem named_of_ok (keyed : r.key? = some key) (done : r.run h m = (.ok answer, n)) :
    ∃ name, Member.keyText key = .ok name := by
  cases refused : Member.keyText key with
  | ok name => exact ⟨name, rfl⟩
  | error e =>
    exfalso
    cases r with
    | assign _ op rhs =>
      cases keyed
      simp only [run, Eval.assignMember, Member.assign, refused] at done
      cases done
    | add _ v =>
      cases keyed
      cases done.symm.trans ((run_add_eq h key v m).trans (bind_refused refused _ _))
    | remove _ =>
      cases keyed
      cases done.symm.trans ((run_remove_eq h key m).trans (bind_refused refused _ _))
    | read _ =>
      cases keyed
      simp only [run, Eval.readMember, Member.read, refused] at done
      cases done
    | has _ =>
      cases keyed
      cases done.symm.trans ((run_has_eq h key m).trans (bind_refused refused _ _))
    | keys => cases keyed

theorem assign_ok {op : AssignOp} {rhs : Value} {name : String}
    (named : Member.keyText key = .ok name)
    (done : (assign key op rhs).run h m = (.ok answer, n)) :
    ∃ t, Operator.combine m.store op (((m.store.entries h).get? name).getD .null) rhs =
        .ok (answer, t) ∧
      n.store = t.setEntries h ((m.store.entries h).insert name answer) := by
  rw [run_assign h m named] at done
  split at done
  · cases done
  · rename_i next t combined
    have same : t.entries h = m.store.entries h := by
      rw [Store.entries, Operator.combine_dictionaries combined, Store.entries]
    split at done
    · cases done
    · cases done
      exact ⟨t, combined, congrArg (fun e => t.setEntries h (e.insert name answer)) same⟩

theorem knows_setEntries {s : Store} (known : s.Knows (.dictionary h)) (e : Entries Value) :
    (s.setEntries h e).Knows (.dictionary h) := by
  simpa [Store.Knows, Store.setEntries] using known

theorem step (known : m.store.Knows (.dictionary h)) (done : r.run h m = (.ok answer, n)) :
    n.store.Knows (.dictionary h) ∧
      n.store.entries h = (r.changes answer).foldr Change.apply (m.store.entries h) := by
  cases r with
  | assign key op rhs =>
    obtain ⟨name, named⟩ := named_of_ok rfl done
    obtain ⟨t, combined, stored⟩ := assign_ok named done
    have known' : t.Knows (.dictionary h) := by
      rwa [Store.Knows, Operator.combine_dictionaries combined]
    simp only [changes, changeAt, named]
    rw [stored]
    exact ⟨knows_setEntries known' _, Store.entries_setEntries_self known' _⟩
  | add key v =>
    obtain ⟨name, named⟩ := named_of_ok rfl done
    rw [run_add h v m named] at done
    simp only [changes, changeAt, named]
    split at done
    · cases done
    · cases done
      exact ⟨knows_setEntries known _, Store.entries_setEntries_self known _⟩
  | remove key =>
    obtain ⟨name, named⟩ := named_of_ok rfl done
    rw [run_remove h m named] at done
    simp only [changes, changeAt, named]
    cases done
    exact ⟨knows_setEntries known _, Store.entries_setEntries_self known _⟩
  | read key =>
    obtain ⟨name, named⟩ := named_of_ok rfl done
    rw [run_read h m named] at done
    cases done
    exact ⟨known, rfl⟩
  | has key =>
    obtain ⟨name, named⟩ := named_of_ok rfl done
    rw [run_has h m named] at done
    cases done
    exact ⟨known, rfl⟩
  | keys =>
    rw [run_keys] at done
    cases done
    exact ⟨known, rfl⟩

end Request

/-- The changes that led to a machine, since the dictionary was first seen. Between the requests,
    anything may happen that leaves the dictionary alone. -/
inductive Past (h : Handle) : List Change → Machine → Prop where
  | start {m : Machine} (known : m.store.Knows (.dictionary h))
      (distinct : (m.store.entries h).keys.Nodup) : Past h (origin (m.store.entries h)) m
  | request {changes : List Change} {m n : Machine} {answer : Value} (r : Request)
      (past : Past h changes m) (done : r.run h m = (.ok answer, n)) :
      Past h (r.changes answer ++ changes) n
  | meanwhile {changes : List Change} {m n : Machine} (past : Past h changes m)
      (known : n.store.Knows (.dictionary h)) (same : n.store.entries h = m.store.entries h) :
      Past h changes n

theorem Past.follows {h : Handle} {changes : List Change} {m : Machine} (past : Past h changes m) :
    m.store.Knows (.dictionary h) ∧ Follows (m.store.entries h) changes := by
  induction past with
  | start known distinct => exact ⟨known, follows_origin distinct⟩
  | request r past done ih =>
    obtain ⟨known, follows⟩ := ih
    obtain ⟨known', changed⟩ := r.step known done
    rw [changed]
    exact ⟨known', follows.apply _⟩
  | meanwhile past known same ih => exact ⟨known, same ▸ ih.2⟩

/-- Two keys address one entry: whatever is added under the one is read under the other. -/
def SameEntry (h : Handle) (m : Machine) (key other : Value) : Prop :=
  ∀ v answer n, (Request.add key v).run h m = (.ok answer, n) →
    (Request.read other).run h n = (.ok v, n)

theorem read_after_add {h : Handle} {m n : Machine} (known : m.store.Knows (.dictionary h))
    {key other v answer : Value} {name name' : String} (named : Member.keyText key = .ok name)
    (named' : Member.keyText other = .ok name')
    (done : (Request.add key v).run h m = (.ok answer, n)) :
    (Request.read other).run h n =
      (.ok (if name' = name then v else ((m.store.entries h).get? name').getD .null), n) := by
  obtain ⟨_, changed⟩ := Request.step known done
  simp only [Request.changes, Request.changeAt, named] at changed
  rw [Request.run_read h n named', changed]
  change (Except.ok ((((m.store.entries h).insert name v).get? name').getD .null), n) = _
  rw [Entries.get?_insert]
  split <;> rfl

theorem sameEntry_iff {h : Handle} {m : Machine} (known : m.store.Knows (.dictionary h))
    {key other : Value} {name name' : String} (named : Member.keyText key = .ok name)
    (named' : Member.keyText other = .ok name') : SameEntry h m key other ↔ name = name' := by
  constructor
  · intro same
    by_contra different
    -- two different values cannot both be what was there before
    have old (b : Bool) : .bool b = ((m.store.entries h).get? name').getD .null := by
      have added := Request.run_add h (.bool b) m named
      have read := read_after_add known named named' added
      rw [same _ _ _ added, if_neg (Ne.symm different)] at read
      exact Except.ok.inj (Prod.mk.inj read).1
    cases (old true).trans (old false).symm
  · rintro rfl v answer n done
    rw [read_after_add known named named' done, if_pos rfl]

/-- Whatever the history of a dictionary, its keys are those under which something was stored last,
    and not removed since, in the order in which they were last new. All requests agree on them:
    `GetKeys` lists them, `HasKey` looks for them, `RemoveKey` says whether there was one and
    `AddToDict` whether there was none. Reading gives what was stored last, or null, and assignments
    start from that. Keys address the same entry just if they have the same text. -/
theorem dictionary_follows_its_past {h : Handle} {changes : List Change} {m : Machine}
    (past : Past h changes m) :
    ∃ names : List String, names.Nodup ∧
      (∀ name, name ∈ names ↔ latest name changes ≠ none) ∧
      names.Pairwise (fun a b => inserted a changes < inserted b changes) ∧
      (∃ list n, Request.keys.run h m = (.ok (.array list), n) ∧
        n.store.items list = names.map .text) ∧
      ∀ key name, Member.keyText key = .ok name →
        (Request.read key).run h m = (.ok ((latest name changes).getD .null), m) ∧
        (∃ n, (Request.has key).run h m = (.ok (.bool (name ∈ names)), n)) ∧
        (∃ n, (Request.remove key).run h m = (.ok (.bool (name ∈ names)), n)) ∧
        (∀ v, ∃ n, (Request.add key v).run h m =
          (if m.store.holds v (.dictionary h) then .error (.cyclicReference .dictionary)
            else .ok (.bool (name ∉ names)), n)) ∧
        (∀ op rhs answer n, (Request.assign key op rhs).run h m = (.ok answer, n) →
          ∃ t, Operator.combine m.store op ((latest name changes).getD .null) rhs =
            .ok (answer, t)) ∧
        ∀ other name', Member.keyText other = .ok name' →
          (SameEntry h m key other ↔ name = name') := by
  obtain ⟨known, follows⟩ := past.follows
  refine ⟨(m.store.entries h).keys, follows.distinct, fun _ => follows.mem_keys, follows.order,
    ?_, ?_⟩
  · rw [Request.run_keys]
    exact ⟨_, _, rfl, by simp [Machine.report, Store.items]⟩
  intro key name named
  have present : (m.store.entries h).contains name = decide (name ∈ (m.store.entries h).keys) := by
    rw [Bool.eq_iff_iff, Entries.contains_iff, decide_eq_true_iff]
  rw [Request.run_read h m named, Request.run_has h m named, Request.run_remove h m named, present,
    follows.get]
  refine ⟨rfl, ⟨_, rfl⟩, ⟨_, rfl⟩, ?_, ?_, ?_⟩
  · intro v
    rw [Request.run_add h v m named, present, decide_not]
    split <;> exact ⟨_, rfl⟩
  · intro op rhs answer n done
    obtain ⟨t, combined, _⟩ := Request.assign_ok named done
    rw [follows.get] at combined
    exact ⟨t, combined⟩
  · intro other name' named'
    exact sameEntry_iff known named named'

def blank : Machine :=
  let m := Machine.initial {} ⟨⟨2024, 1, 1⟩, 0, 0⟩
  { m with store := (m.store.newDictionary .empty).2 }

theorem dictionary_follows_its_past_readded :
    ∃ changes m, Past 0 changes m ∧ inserted "1" changes < inserted "a" changes ∧
      (Request.read (.text "a")).run 0 m = (.ok (.text "z"), m) ∧
      ∃ names : List String,
        (∃ list n, Request.keys.run 0 m = (.ok (.array list), n) ∧
          n.store.items list = names.map .text) ∧
        names.Pairwise fun a b => inserted a changes < inserted b changes := by
  have start : Past 0 _ blank := .start (show 0 < 1 from Nat.one_pos) List.nodup_nil
  have first := start.request (.assign (.text "a") .assign (.text "y")) rfl
  have second := first.request (.add (.bool true) .null) rfl
  have third := second.request (.remove (.text "a")) rfl
  have fourth := third.request (.add (.text "a") (.text "z")) rfl
  obtain ⟨names, _, _, order, listed, answers⟩ := dictionary_follows_its_past fourth
  obtain ⟨read, _⟩ := answers (.text "a") "a" rfl
  exact ⟨_, _, fourth, by decide, read, names, listed, order⟩

end Dictionary
end FlowScript
