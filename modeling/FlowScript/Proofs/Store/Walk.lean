import FlowScript.Proofs.Broadcast.Plan

/-!
Walks of a store without their bounds. Each walk has a recursion of its own, by which it goes from a
value to the values that it holds. Main statement: on an acyclic store every walk is the only
solution of its recursion, so the bound on its depth is never felt.
-/
namespace FlowScript

/-- A recursion that only looks below has at most one solution. -/
theorem only_solution {α β : Type} {below : α → α → Prop} (wf : WellFounded below)
    (step : (α → β) → α → β)
    (looks_below : ∀ f g a, (∀ b, below b a → f b = g b) → step f a = step g a) {walk : α → β}
    (solves : ∀ a, walk a = step walk a) (f : α → β) : (∀ a, f a = step f a) ↔ f = walk := by
  constructor
  · intro other
    funext a
    induction a using wf.induction with
    | h a ih => rw [other a, solves a, looks_below f walk a ih]
  · rintro rfl
    exact solves

namespace Store

variable {s : Store}

/-- The text of a value, given the texts of the values that it holds. -/
def renderLayer (s : Store) (nested : Value → String) : Value → String
  | .array h => "\x7b" ++ ",".intercalate ((s.items h).map fun v => quoteNested v (nested v)) ++ "\x7d"
  | .dictionary h =>
    let pairs := (s.entries h).toList.map fun p => p.1 ++ "=>" ++ quoteNested p.2 (nested p.2)
    "[" ++ ",".intercalate pairs ++ "]"
  | v => scalarText v

theorem renderLayer_congr (f g : Value → String) (v : Value)
    (same : ∀ w, s.HasChild v w → f w = g w) : s.renderLayer f v = s.renderLayer g v := by
  cases v with
  | array h =>
    have mapped : ((s.items h).map fun v => quoteNested v (f v)) =
        (s.items h).map fun v => quoteNested v (g v) :=
      List.map_congr_left fun w member => by rw [same w member]
    simp only [renderLayer, mapped]
  | dictionary h =>
    have mapped : ((s.entries h).toList.map fun p => p.1 ++ "=>" ++ quoteNested p.2 (f p.2)) =
        (s.entries h).toList.map fun p => p.1 ++ "=>" ++ quoteNested p.2 (g p.2) := by
      refine List.map_congr_left fun p member => ?_
      rw [same p.2 (List.mem_map_of_mem member)]
    simp only [renderLayer, mapped]
  | _ => rfl

theorem renderWithin_eq_layer (n : Nat) (v : Value) :
    s.renderWithin (n + 1) v = s.renderLayer (s.renderWithin n) v := by
  cases v <;> rfl

theorem renderWithin_stable (acyclic : s.Acyclic) (n : Nat) (v : Value) (enough : s.weight v ≤ n) :
    s.renderWithin (n + 1) v = s.renderWithin n v := by
  induction n generalizing v with
  | zero =>
    have none := weight_zero_no_children acyclic (Nat.le_zero.mp enough)
    cases v with
    | array h =>
      have empty : s.items h = [] := none
      simp only [renderWithin, empty]
      rfl
    | dictionary h =>
      have empty : (s.entries h).toList = [] := by simpa [children, Entries.values] using none
      simp only [renderWithin, empty]
      rfl
    | _ => rfl
  | succ n ih =>
    rw [renderWithin_eq_layer, renderWithin_eq_layer]
    refine renderLayer_congr _ _ v fun w child => ih w ?_
    have lighter := weight_decreases acyclic child
    omega

theorem render_eq (acyclic : s.Acyclic) (v : Value) : s.render v = s.renderLayer s.render v := by
  unfold render depthBound
  rw [renderWithin_eq_layer]
  refine renderLayer_congr _ _ v fun w _ => ?_
  exact (renderWithin_stable acyclic s.size w (weight_le_size s w)).symm

/-- The walks that an evaluation makes through the store come to an end: each is the only solution
    of a recursion that goes down the store. -/
structure Walkable (s : Store) : Prop where
  descends : WellFounded fun w v => s.HasChild v w
  holds : ∀ (c : Value) (f : Value → Bool),
    (∀ v, f v = (v.sameContainer c || (s.children v).any f)) ↔ f = fun v => s.holds v c
  render : ∀ f : Value → String, (∀ v, f v = s.renderLayer f v) ↔ f = s.render
  plan : ∀ (op : BinaryOp) (f : Value × Value → Except RunError Operator.Update),
    (∀ p, f p = Operator.planStep s op (fun a b => f (a, b)) p.1 p.2) ↔
      f = fun p => Operator.plan s op p.1 p.2

theorem walkable_of_acyclic (acyclic : s.Acyclic) : s.Walkable where
  descends := acyclic_wellFounded acyclic
  holds c := by
    refine only_solution (acyclic_wellFounded acyclic)
      (fun f v => v.sameContainer c || (s.children v).any f) ?_ fun v => holds_eq acyclic v c
    intro f g v same
    exact congrArg (v.sameContainer c || ·) (any_congr_of_mem same)
  render := only_solution (acyclic_wellFounded acyclic) s.renderLayer renderLayer_congr
    (render_eq acyclic)
  plan op := by
    -- both operands get lighter together, so neither alone could carry the recursion
    refine only_solution
      (measure fun p : Value × Value =>
        max (Operator.arrayWeight s p.1) (Operator.arrayWeight s p.2)).wf
      (fun f p => Operator.planStep s op (fun a b => f (a, b)) p.1 p.2) ?_
      fun p => Operator.plan_eq acyclic op p.1 p.2
    intro f g p same
    refine Operator.planStep_congr fun target pairs split q listed => ?_
    exact same q (Operator.spread_lighter acyclic split listed)

end Store
end FlowScript
