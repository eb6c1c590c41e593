import FlowScript.Proofs.Machine.Sound

/-!
Computations that leave the evaluation of expressions to somebody else, and the evaluations that
they ask for. Main statements: the rules by which the list of what is asked for grows along a
computation, together with the soundness of the machine.
-/
namespace FlowScript

/-- A computation that asks for the values of expressions. -/
abbrev Asking (α : Type) : Type := (Expr → Eval Value) → Eval α

namespace Asking

variable {α β : Type} {base : Expr → Eval Value} {m : Machine} {x : Asking α}
  {asked : List (Expr × Machine)}

/-- Started on `m`, the computation asks for no more than what is listed: whoever answers like
    `base` there makes it end as it does with `base`. -/
def AsksOnly (base : Expr → Eval Value) (m : Machine) (x : Asking α) (asked : List (Expr × Machine)) :
    Prop :=
  ∀ ev : Expr → Eval Value, (∀ p ∈ asked, ev p.1 p.2 = base p.1 p.2) → x ev m = x base m

theorem asksOnly_bind {f : α → Asking β} (first : AsksOnly base m x asked)
    {later : List (Expr × Machine)}
    (next : ∀ a n, x base m = (.ok a, n) → AsksOnly base n (f a) later) :
    AsksOnly base m (fun ev => x ev >>= fun a => f a ev) (asked ++ later) := by
  intro ev agrees
  rw [List.forall_mem_append] at agrees
  change (x ev >>= fun a => f a ev) m = (x base >>= fun a => f a base) m
  rw [Eval.bind_apply, Eval.bind_apply, first ev agrees.1]
  cases run : x base m with
  | mk r n =>
    cases r with
    | error e => rfl
    | ok a => exact next a n run ev agrees.2

theorem asksOnly_orElse {handler : RunError → Asking α} (first : AsksOnly base m x asked)
    {later : List (Expr × Machine)}
    (other : ∀ e n, x base m = (.error e, n) → AsksOnly base n (handler e) later) :
    AsksOnly base m (fun ev => (x ev).orElse fun e => handler e ev) (asked ++ later) := by
  intro ev agrees
  rw [List.forall_mem_append] at agrees
  change ((x ev).orElse fun e => handler e ev) m = ((x base).orElse fun e => handler e base) m
  unfold Eval.orElse
  rw [first ev agrees.1]
  cases run : x base m with
  | mk r n =>
    cases r with
    | ok a => rfl
    | error e => exact other e n run ev agrees.2

theorem asksOnly_truth {x : Asking Value} (first : AsksOnly base m x asked) :
    AsksOnly base m (fun ev => (x ev).truth) asked := by
  intro ev agrees
  change (x ev).truth m = (x base).truth m
  unfold Eval.truth
  rw [first ev agrees]

/-- From a sound machine the computation goes on soundly, and asks for finitely many evaluations,
    all of allowed expressions and on sound machines. -/
structure SafeFrom (allowed : Expr → Prop) (base : Expr → Eval Value) (m : Machine) (x : Asking α)
    (post : Store → α → Prop) : Prop where
  sound : (x base).SoundFrom m post
  asks : m.Sound → ∃ asked, AsksOnly base m x asked ∧ ∀ p ∈ asked, allowed p.1 ∧ p.2.Sound

variable {allowed : Expr → Prop} {post : Store → α → Prop}

theorem safe_of_sound {y : Eval α} (sound : y.SoundFrom m post) :
    SafeFrom allowed base m (fun _ => y) post where
  sound := sound
  asks _ := ⟨[], fun _ _ => rfl, by simp⟩

theorem safe_ask {e : Expr} {post : Store → Value → Prop} (member : allowed e)
    (sound : (base e).SoundFrom m post) : SafeFrom allowed base m (fun ev => ev e) post where
  sound := sound
  asks here := by
    refine ⟨[(e, m)], ?_, ?_⟩
    · intro ev agrees
      exact agrees (e, m) (by simp)
    · simpa using ⟨member, here⟩

theorem SafeFrom.bind {f : α → Asking β} {last : Store → β → Prop}
    (first : SafeFrom allowed base m x post)
    (next : ∀ a n, m.store.Grows n.store → post n.store a → SafeFrom allowed base n (f a) last) :
    SafeFrom allowed base m (fun ev => x ev >>= fun a => f a ev) last where
  sound := first.sound.bind fun a n grows holds => (next a n grows holds).sound
  asks here := by
    obtain ⟨asked, only, safe⟩ := first.asks here
    obtain ⟨after, grows, answer⟩ := first.sound here
    -- what is asked for later depends on the answer that `base` gives
    cases run : x base m with
    | mk r n =>
      rw [run] at after grows answer
      cases r with
      | error e => exact ⟨asked ++ [], asksOnly_bind only (by simp [run]), by simpa using safe⟩
      | ok a =>
        obtain ⟨later, only', safe'⟩ := (next a n grows (answer a rfl)).asks after
        refine ⟨asked ++ later, asksOnly_bind only ?_, List.forall_mem_append.mpr ⟨safe, safe'⟩⟩
        intro b k same
        rw [run] at same
        cases same
        exact only'

theorem safe_machine_bind {f : Machine → Asking α} (next : SafeFrom allowed base m (f m) post) :
    SafeFrom allowed base m (fun ev => Eval.machine >>= fun n => f n ev) post :=
  ⟨next.sound, next.asks⟩

theorem safe_scope_bind {f : Scope → Asking α} (next : SafeFrom allowed base m (f m.scope) post) :
    SafeFrom allowed base m (fun ev => Eval.scope >>= fun sc => f sc ev) post :=
  ⟨next.sound, next.asks⟩

theorem SafeFrom.orElse {handler : RunError → Asking α} (first : SafeFrom allowed base m x post)
    (other : ∀ e n, m.store.Grows n.store → SafeFrom allowed base n (handler e) post) :
    SafeFrom allowed base m (fun ev => (x ev).orElse fun e => handler e ev) post where
  sound := first.sound.orElse fun e n grows => (other e n grows).sound
  asks here := by
    obtain ⟨asked, only, safe⟩ := first.asks here
    obtain ⟨after, grows, _⟩ := first.sound here
    cases run : x base m with
    | mk r n =>
      rw [run] at after grows
      cases r with
      | ok a => exact ⟨asked ++ [], asksOnly_orElse only (by simp [run]), by simpa using safe⟩
      | error e =>
        obtain ⟨later, only', safe'⟩ := (other e n grows).asks after
        refine ⟨asked ++ later, asksOnly_orElse only ?_, List.forall_mem_append.mpr ⟨safe, safe'⟩⟩
        intro d k same
        rw [run] at same
        cases same
        exact only'

theorem SafeFrom.truth {x : Asking Value} {post : Store → Value → Prop}
    (first : SafeFrom allowed base m x post) :
    SafeFrom allowed base m (fun ev => (x ev).truth) Eval.anything where
  sound := first.sound.truth
  asks here := by
    obtain ⟨asked, only, safe⟩ := first.asks here
    exact ⟨asked, asksOnly_truth only, safe⟩

theorem safe_all {es : List Expr}
    (each : ∀ e ∈ es, ∀ n, SafeFrom allowed base n (fun ev => ev e) Store.Knows) (m : Machine) :
    SafeFrom allowed base m (fun ev => Eval.all (es.map ev)) fun s vs => ∀ v ∈ vs, s.Knows v := by
  induction es generalizing m with
  | nil => exact safe_of_sound (Eval.sound_pure (by simp))
  | cons e rest ih =>
    rw [List.forall_mem_cons] at each
    apply (each.1 m).bind
    intro v n _ known
    apply (ih each.2 n).bind
    intro vs k grows all_known
    exact safe_of_sound (Eval.sound_pure
      (List.forall_mem_cons.mpr ⟨grows.knows known, all_known⟩))

end Asking
end FlowScript
