import FlowScript.Token.Lexer

/-!
The part of a text that is read. What lies outside a block becomes spaces, but line feeds stay, so
every character keeps its position. Main statements: where a search finds a text and where it finds
none, and what each character of a text becomes when its block is isolated.
-/
namespace FlowScript

namespace Text

variable {needle cs : List Char}

theorem after?_isSome : (after? needle cs).isSome ↔ needle <+: cs := by
  rw [Option.isSome_iff_exists]
  constructor
  · rintro ⟨rest, found⟩
    exact ⟨rest, (after?_eq_some.mp found).symm⟩
  · rintro ⟨rest, rfl⟩
    exact ⟨rest, after?_eq_some.mpr rfl⟩

theorem find?_go_some {place i : Nat} (found : find?.go needle place cs = some i) :
    ∃ k, i = place + k ∧ needle <+: cs.drop k ∧ ∀ j < k, ¬ needle <+: cs.drop j := by
  induction cs generalizing place with
  | nil =>
    unfold find?.go at found
    split at found
    · rename_i empty
      cases found
      rw [List.isEmpty_iff.mp empty]
      exact ⟨0, by simp⟩
    · cases found
  | cons c rest ih =>
    unfold find?.go at found
    split at found
    · rename_i here
      cases found
      exact ⟨0, rfl, after?_isSome.mp here, by simp⟩
    · rename_i elsewhere
      obtain ⟨k, rfl, there, before⟩ := ih found
      refine ⟨k + 1, by omega, there, ?_⟩
      intro j earlier
      cases j with
      | zero => simpa [after?_isSome] using elsewhere
      | succ j => exact before j (by omega)

theorem find?_go_none {place : Nat} (none : find?.go needle place cs = none) (j : Nat) :
    ¬ needle <+: cs.drop j := by
  induction cs generalizing place j with
  | nil =>
    unfold find?.go at none
    split at none
    · cases none
    · rename_i some_char
      intro here
      rw [List.drop_nil, List.prefix_nil] at here
      exact some_char (by simp [here])
  | cons c rest ih =>
    unfold find?.go at none
    split at none
    · cases none
    · rename_i elsewhere
      cases j with
      | zero => simpa [after?_isSome] using elsewhere
      | succ j => exact ih none j

theorem find?_some {skip i : Nat} (found : find? needle skip cs = some i) :
    skip ≤ i ∧ needle <+: cs.drop i ∧ ∀ j, skip ≤ j → j < i → ¬ needle <+: cs.drop j := by
  obtain ⟨k, rfl, there, before⟩ := find?_go_some found
  rw [List.drop_drop] at there
  refine ⟨by omega, there, ?_⟩
  intro j late early
  have apart := before (j - skip) (by omega)
  rwa [List.drop_drop, Nat.add_sub_cancel' late] at apart

theorem find?_none {skip : Nat} (none : find? needle skip cs = none) {j : Nat} (late : skip ≤ j) :
    ¬ needle <+: cs.drop j := by
  have apart := find?_go_none none (j - skip)
  rwa [List.drop_drop, Nat.add_sub_cancel' late] at apart

theorem find?_inside {skip i : Nat} (found : find? needle skip cs = some i) (solid : needle ≠ []) :
    i + needle.length ≤ cs.length := by
  have long := (find?_some found).2.1.length_le
  have some_char := List.length_pos_iff.mpr solid
  rw [List.length_drop] at long
  omega

end Text

namespace Lexer

theorem prefix_before {t a b : List Char} {c : Char} (free : c ∉ t) (first : t <+: a ++ c :: b) :
    t <+: a := by
  induction a generalizing t with
  | nil =>
    cases t with
    | nil => simp
    | cons d more =>
      rw [List.nil_append, List.cons_prefix_cons] at first
      exact absurd (by simp [first.1]) free
  | cons x rest ih =>
    cases t with
    | nil => simp
    | cons d more =>
      rw [List.cons_append, List.cons_prefix_cons] at first
      exact List.cons_prefix_cons.mpr ⟨first.1, ih (List.not_mem_of_not_mem_cons free) first.2⟩

/-- The places where the part of a text that is read begins and ends. -/
def bounds (source : List Char) : Nat × Nat :=
  match Text.find? openingTag 0 (source.map Char.toLower) with
  | none => (0, source.length)
  | some opening =>
    let first := opening + openingTag.length
    match Text.find? closingTag first (source.map Char.toLower) with
    | none => (first, source.length)
    | some closing => (first, closing)

theorem bounds_le (source : List Char) : (bounds source).2 ≤ source.length := by
  unfold bounds
  dsimp only
  split
  · exact Nat.le_refl _
  · split
    · exact Nat.le_refl _
    · rename_i closed
      have inside := Text.find?_inside closed (by decide)
      rw [List.length_map] at inside
      omega

/-- What becomes of the character at a place. -/
def shown (source : List Char) (i : Nat) (c : Char) : Char :=
  if (bounds source).1 ≤ i ∧ i < (bounds source).2 ∨ c = '\n' then c else ' '

theorem shown_inside {source : List Char} {i : Nat}
    (inside : (bounds source).1 ≤ i ∧ i < (bounds source).2) : shown source i = id := by
  funext c
  simp [shown, inside]

theorem shown_outside {source : List Char} {i : Nat}
    (outside : ¬ ((bounds source).1 ≤ i ∧ i < (bounds source).2)) :
    shown source i = fun c => if c = '\n' then c else ' ' := by
  funext c
  simp only [shown, outside, false_or]

theorem blankOut_get (cs : List Char) (i : Nat) :
    (blankOut cs)[i]? = cs[i]?.map fun c => if c = '\n' then c else ' ' := by
  simp [blankOut]

variable {source text : List Char}

theorem isolateBlock_get (done : isolateBlock source = .ok text) (i : Nat) :
    text[i]? = source[i]?.map (shown source i) := by
  unfold isolateBlock at done
  simp only at done
  split at done
  · rename_i untagged
    cases done
    have whole : bounds source = (0, source.length) := by simp [bounds, untagged]
    by_cases inside : i < source.length
    · rw [shown_inside (by simpa [whole] using inside), Option.map_id_fun, id]
    · simp [Nat.le_of_not_lt inside]
  · rename_i opening opened
    split at done
    · cases done
    · rename_i closing closed
      cases done
      have region : bounds source = (opening + openingTag.length, closing) := by
        simp [bounds, opened, closed]
      have ordered := (Text.find?_some closed).1
      have inside := Text.find?_inside closed (by decide)
      rw [List.length_map] at inside
      generalize opening + openingTag.length = first at region ordered
      -- before the block, in it, and after it
      by_cases early : i < first
      · rw [shown_outside (by rw [region]; omega), List.append_assoc,
          List.getElem?_append_left (by simp [blankOut]; omega), blankOut_get,
          List.getElem?_take_of_lt early]
      by_cases late : closing ≤ i
      · have place : closing + (i - (min first source.length +
            (min closing source.length - first))) = i := by omega
        rw [shown_outside (by rw [region]; omega),
          List.getElem?_append_right (by simp [blankOut]; omega), blankOut_get]
        simp only [blankOut, List.length_append, List.length_map, List.length_take,
          List.length_drop, List.getElem?_drop, place]
      · have place : first + (i - min first source.length) = i := by omega
        rw [shown_inside (by rw [region]; omega), List.append_assoc,
          List.getElem?_append_right (by simp [blankOut]; omega),
          List.getElem?_append_left (by simp [blankOut]; omega), Option.map_id_fun, id]
        simp only [blankOut, List.length_map, List.length_take, List.getElem?_drop, place]
        exact List.getElem?_take_of_lt (by omega)

theorem isolateBlock_length (done : isolateBlock source = .ok text) :
    text.length = source.length := by
  have ends (cs ds : List Char) (same : ∀ i : Nat, cs[i]? = none → ds[i]? = none) :
      ds.length ≤ cs.length := by
    simpa using same cs.length (by simp)
  refine Nat.le_antisymm (ends _ _ ?_) (ends _ _ ?_)
  · intro i none
    rw [isolateBlock_get done, none]
    rfl
  · intro i none
    rw [isolateBlock_get done] at none
    simpa using none

theorem isolateBlock_inside (done : isolateBlock source = .ok text) {i : Nat}
    (first : (bounds source).1 ≤ i) (last : i < (bounds source).2) : text[i]? = source[i]? := by
  rw [isolateBlock_get done, shown_inside ⟨first, last⟩, Option.map_id_fun, id]

theorem inside_of_visible (done : isolateBlock source = .ok text) {i : Nat} {c : Char}
    (there : text[i]? = some c) (visible : isSpace c = false) :
    (bounds source).1 ≤ i ∧ i < (bounds source).2 := by
  rw [isolateBlock_get done, Option.map_eq_some_iff] at there
  obtain ⟨d, _, rfl⟩ := there
  unfold shown at visible
  split at visible
  · rename_i kept
    rcases kept with inside | feed
    · exact inside
    · subst feed
      exact absurd visible (by decide)
  · exact absurd visible (by decide)

theorem after_eq_of_feeds {p : Position} {cs ds : List Char}
    (same : cs.map (· == '\n') = ds.map (· == '\n')) : p.after cs = p.after ds := by
  have feeds (cs : List Char) : p.after cs = (cs.map (· == '\n')).foldl
      (fun p feed => if feed then ⟨p.line + 1, 1⟩ else ⟨p.line, p.column + 1⟩) p := by
    rw [List.foldl_map]
    simp only [beq_iff_eq]
    rfl
  rw [feeds, feeds, same]

theorem isolateBlock_position (done : isolateBlock source = .ok text) (p : Position) (o : Nat) :
    p.after (text.take o) = p.after (source.take o) := by
  have same : text.map (· == '\n') = source.map (· == '\n') := by
    apply List.ext_getElem?
    intro i
    rw [List.getElem?_map, List.getElem?_map, isolateBlock_get done]
    cases source[i]? with
    | none => rfl
    | some c =>
      by_cases inside : (bounds source).1 ≤ i ∧ i < (bounds source).2
      · rw [shown_inside inside]
        rfl
      · rw [shown_outside inside]
        by_cases feed : c = '\n' <;> simp [feed]
  refine after_eq_of_feeds ?_
  rw [List.map_take, List.map_take, same]

theorem isolateBlock_error {failure : Failure} (failed : isolateBlock source = .error failure) :
    ∃ opening, Text.find? openingTag 0 (source.map Char.toLower) = some opening ∧
      Text.find? closingTag (opening + openingTag.length) (source.map Char.toLower) = none ∧
      failure = ⟨.unclosedBlock, Position.start.after (source.take opening)⟩ := by
  unfold isolateBlock at failed
  simp only at failed
  split at failed
  · cases failed
  · rename_i opening opened
    split at failed
    · rename_i unclosed
      cases failed
      exact ⟨opening, opened, unclosed, rfl⟩
    · cases failed

theorem find?_of_tag_free (free : ¬ openingTag <:+: source.map Char.toLower) :
    Text.find? openingTag 0 (source.map Char.toLower) = none := by
  cases found : Text.find? openingTag 0 (source.map Char.toLower) with
  | none => rfl
  | some i =>
    obtain ⟨-, here, -⟩ := Text.find?_some found
    exact absurd (here.isInfix.trans (List.drop_suffix i _).isInfix) free

theorem isolateBlock_of_tag_free (free : ¬ openingTag <:+: source.map Char.toLower) :
    isolateBlock source = .ok source := by
  unfold isolateBlock
  dsimp only
  rw [find?_of_tag_free free]

theorem bounds_of_tag_free (free : ¬ openingTag <:+: source.map Char.toLower) :
    bounds source = (0, source.length) := by
  rw [bounds, find?_of_tag_free free]

end Lexer
end FlowScript
