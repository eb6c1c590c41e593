import FlowScript.Proofs.Library.ByName
import FlowScript.Proofs.Number.Whole

/-!
Occurrences of one text in another. Splitting, replacing and counting each go through the text by
themselves. Main statement: they agree on the occurrences that they find, and positions are counted
in characters, from either end.
-/
namespace FlowScript

namespace Text

/-- No occurrence of `d` begins in the first text when the second one follows it. -/
def Clear (d : List Char) : List Char → List Char → Prop
  | [], _ => True
  | c :: cs, rest => ¬ d <+: c :: (cs ++ rest) ∧ Clear d cs rest

/-- The parts of a text between the occurrences of `d` that are met from left to right. -/
inductive Cut (d : List Char) : List Char → List (List Char) → Prop where
  | last {cs : List Char} (clear : Clear d cs []) : Cut d cs [cs]
  | next {p rest : List Char} {parts : List (List Char)} (clear : Clear d p (d ++ rest))
      (cut : Cut d rest parts) : Cut d (p ++ (d ++ rest)) (p :: parts)

theorem Clear.not_infix {d p rest : List Char} (solid : d ≠ []) (clear : Clear d p rest) :
    ¬ d <:+: p := by
  induction p with
  | nil => simpa using solid
  | cons c p ih =>
    rw [List.infix_cons_iff]
    rintro (here | later)
    · exact clear.1 (here.trans (List.prefix_append (c :: p) rest))
    · exact ih clear.2 later

theorem clear_or_occurs (d cs : List Char) :
    Clear d cs [] ∨ ∃ p rest, cs = p ++ (d ++ rest) ∧ Clear d p (d ++ rest) := by
  induction cs with
  | nil => exact .inl trivial
  | cons c cs ih =>
    by_cases here : d <+: c :: cs
    · obtain ⟨rest, same⟩ := here
      exact .inr ⟨[], rest, same.symm, trivial⟩
    · rcases ih with clear | ⟨p, rest, rfl, clear⟩
      · exact .inl ⟨by rwa [List.append_nil], clear⟩
      · exact .inr ⟨c :: p, rest, rfl, here, clear⟩

theorem exists_cut {d : List Char} (solid : d ≠ []) (cs : List Char) : ∃ parts, Cut d cs parts := by
  induction size : cs.length using Nat.strongRecOn generalizing cs with
  | ind n ih =>
    rcases clear_or_occurs d cs with clear | ⟨p, rest, rfl, clear⟩
    · exact ⟨[cs], .last clear⟩
    · have shorter : rest.length < n := by
        have some_char := List.length_pos_of_ne_nil solid
        simp only [List.length_append] at size
        omega
      obtain ⟨parts, cut⟩ := ih rest.length shorter rest rfl
      exact ⟨p :: parts, .next clear cut⟩

namespace Cut

variable {d cs : List Char} {parts : List (List Char)}

theorem ne_nil (cut : Cut d cs parts) : parts ≠ [] := by
  cases cut <;> simp

theorem intercalate_cons (cut : Cut d cs parts) (r p : List Char) :
    r.intercalate (p :: parts) = p ++ (r ++ r.intercalate parts) := by
  obtain ⟨q, rest, rfl⟩ := List.exists_cons_of_ne_nil cut.ne_nil
  rw [List.intercalate_cons_cons, List.append_assoc]

theorem join (cut : Cut d cs parts) : d.intercalate parts = cs := by
  induction cut with
  | last => simp
  | next clear cut ih => rw [cut.intercalate_cons, ih]

theorem not_infix (cut : Cut d cs parts) (solid : d ≠ []) : ∀ p ∈ parts, ¬ d <:+: p := by
  induction cut with
  | last clear => simpa using clear.not_infix solid
  | next clear cut ih => exact List.forall_mem_cons.mpr ⟨clear.not_infix solid, ih⟩

end Cut

section Scans

variable {d : Char} {ds : List Char}

theorem after?_appended (rest : List Char) : after? (d :: ds) (d :: (ds ++ rest)) = some rest :=
  after?_eq_some.mpr rfl

theorem after?_clear {c : Char} {cs : List Char} (here : ¬ d :: ds <+: c :: cs) :
    after? (d :: ds) (c :: cs) = none := by
  cases found : after? (d :: ds) (c :: cs) with
  | none => rfl
  | some tail => exact absurd ⟨tail, (after?_eq_some.mp found).symm⟩ here

theorem pieces_clear {p rest : List Char} (clear : Clear (d :: ds) p rest) (piece : List Char) :
    pieces.go d ds piece (p ++ rest) = pieces.go d ds (p.reverse ++ piece) rest := by
  induction p generalizing piece with
  | nil => rfl
  | cons c p ih =>
    rw [List.cons_append, pieces.go]
    split
    · rename_i tail found
      cases (after?_clear clear.1).symm.trans found
    · rw [ih clear.2, List.reverse_cons, List.append_assoc, List.singleton_append]

theorem pieces_occurrence (piece rest : List Char) :
    pieces.go d ds piece (d :: ds ++ rest) = piece.reverse :: pieces.go d ds [] rest := by
  rw [List.cons_append, pieces.go]
  split
  · rename_i tail found
    cases (after?_appended rest).symm.trans found
    rfl
  · rename_i missing
    cases (after?_appended rest).symm.trans missing

theorem Cut.splitOn_eq {cs : List Char} {parts : List (List Char)} (cut : Cut (d :: ds) cs parts) :
    splitOn (d :: ds) cs = parts := by
  change pieces.go d ds [] cs = parts
  induction cut with
  | @last cs clear =>
    have all := pieces_clear clear []
    rw [List.append_nil, List.append_nil] at all
    rw [all, pieces.go, List.reverse_reverse]
  | next clear cut ih =>
    rw [pieces_clear clear, pieces_occurrence, ih, List.append_nil, List.reverse_reverse]

theorem replace_clear {p rest : List Char} (clear : Clear (d :: ds) p rest)
    (new done : List Char) :
    replace.go new d ds done (p ++ rest) = replace.go new d ds (p.reverse ++ done) rest := by
  induction p generalizing done with
  | nil => rfl
  | cons c p ih =>
    rw [List.cons_append, replace.go]
    split
    · rename_i tail found
      cases (after?_clear clear.1).symm.trans found
    · rw [ih clear.2, List.reverse_cons, List.append_assoc, List.singleton_append]

theorem replace_occurrence (new done rest : List Char) :
    replace.go new d ds done (d :: ds ++ rest) =
      replace.go new d ds (new.reverse ++ done) rest := by
  rw [List.cons_append, replace.go]
  split
  · rename_i tail found
    cases (after?_appended rest).symm.trans found
    rfl
  · rename_i missing
    cases (after?_appended rest).symm.trans missing

theorem Cut.replace_eq {cs : List Char} {parts : List (List Char)} (cut : Cut (d :: ds) cs parts)
    (new : List Char) : replace (d :: ds) new cs = new.intercalate parts := by
  suffices ∀ done, replace.go new d ds done cs = done.reverse ++ new.intercalate parts from this []
  induction cut with
  | @last cs clear =>
    intro done
    have all := replace_clear clear new done
    rw [List.append_nil] at all
    rw [all, replace.go, List.reverse_append, List.reverse_reverse, List.intercalate_singleton]
  | next clear cut ih =>
    intro done
    rw [replace_clear clear, replace_occurrence, ih, cut.intercalate_cons]
    simp only [List.reverse_append, List.reverse_reverse, List.append_assoc]

theorem positions_clear {p rest : List Char} (clear : Clear (d :: ds) p rest) (place : Nat) :
    positions.go d ds place (p ++ rest) = positions.go d ds (place + p.length) rest := by
  induction p generalizing place with
  | nil => rfl
  | cons c p ih =>
    rw [List.cons_append, positions.go]
    split
    · rename_i tail found
      cases (after?_clear clear.1).symm.trans found
    · rw [ih clear.2, List.length_cons, Nat.add_assoc, Nat.add_comm 1]

theorem positions_occurrence (place : Nat) (rest : List Char) :
    positions.go d ds place (d :: ds ++ rest) =
      place :: positions.go d ds (place + (d :: ds).length) rest := by
  rw [List.cons_append, positions.go]
  split
  · rename_i tail found
    cases (after?_appended rest).symm.trans found
    rfl
  · rename_i missing
    cases (after?_appended rest).symm.trans missing

theorem Cut.positions_eq {cs : List Char} {parts : List (List Char)}
    (cut : Cut (d :: ds) cs parts) :
    positions d ds cs = (List.range (parts.length - 1)).map fun i =>
      ((d :: ds).intercalate (parts.take (i + 1))).length := by
  suffices ∀ place, positions.go d ds place cs = (List.range (parts.length - 1)).map fun i =>
      place + ((d :: ds).intercalate (parts.take (i + 1))).length by
    simpa [positions] using this 0
  induction cut with
  | @last cs clear =>
    intro place
    have all := positions_clear clear place
    rw [List.append_nil] at all
    rw [all, positions.go]
    rfl
  | @next p rest parts clear cut ih =>
    intro place
    obtain ⟨q, others, rfl⟩ := List.exists_cons_of_ne_nil cut.ne_nil
    -- the first occurrence ends the first part; the others count on from its end
    rw [positions_clear clear, positions_occurrence, ih]
    simp only [List.length_cons, Nat.add_sub_cancel, List.range_succ_eq_map, List.map_cons,
      List.map_map]
    congr 1
    · simp
    · apply List.map_congr_left
      intro i _
      simp only [Function.comp_apply, Nat.succ_eq_add_one, List.take_succ_cons,
        List.intercalate_cons_cons, List.length_append, List.length_cons]
      omega

end Scans
end Text

namespace Library

theorem callWith_split (t d : String) (m : Machine) :
    callWith "Split" [.text t, .text d] m =
      Eval.newArray ((Text.splitOn d.toList t.toList).map fun part => .text (String.ofList part))
        (m.report (.calling "Split" 2)) := by
  have called : callWith "Split" [.text t, .text d] m = split [.text t, .text d] _ :=
    callWith_immediate rfl rfl rfl rfl m rfl
  exact called

theorem callWith_replace (t old new : String) (m : Machine) :
    callWith "Replace" [.text t, .text old, .text new] m =
      (.ok (.text (String.ofList (Text.replace old.toList new.toList t.toList))),
        m.report (.calling "Replace" 3)) := by
  have called : callWith "Replace" [.text t, .text old, .text new] m =
      replaceAll [.text t, .text old, .text new] _ :=
    callWith_immediate rfl rfl rfl rfl m rfl
  exact called

theorem callWith_index (t needle : String) {x : Float} {k : Int} (finite : x.isFinite = true)
    (exact : Number.value x = k) (m : Machine) :
    callWith "Index" [.text t, .text needle, .number x] m =
      (.ok (.number (position x needle.toList t.toList)), m.report (.calling "Index" 3)) := by
  have called : callWith "Index" [.text t, .text needle, .number x] m =
      index [.text t, .text needle, .number (if x.isNaN then 0.0 else Number.truncate x)] _ :=
    callWith_immediate rfl rfl rfl rfl m rfl
  rw [called, Number.isNaN_of_isFinite finite, Number.truncate_of_integer finite exact]
  rfl

section Index

variable {x : Float} {k : Int} (finite : x.isFinite = true) (exact : Number.value x = k)

include finite exact

theorem countTo?_integer (places : List Nat) :
    countTo? x places =
      if 0 < k then places[(k - 1).toNat]?
      else if k < 0 ∧ -k ≤ places.length then places[(places.length + k).toNat]?
      else none := by
  have positive : 0.0 < x ↔ 0 < k := by
    rw [Number.zero_lt_iff finite, exact, Int.cast_pos]
  simp only [countTo?, Number.whole_eq_natAbs exact, positive]
  by_cases front : 0 < k
  · have index : k.natAbs - 1 = (k - 1).toNat := by omega
    rw [if_pos front, if_pos front, if_neg (by omega), index]
  · rw [if_neg front, if_neg front]
    by_cases back : k < 0 ∧ -k ≤ places.length
    · have index : places.length - k.natAbs = (places.length + k).toNat := by omega
      rw [if_pos back, if_pos (by omega), index]
    · rw [if_neg back]
      split
      · -- an integer that is neither positive nor too large is zero, and counts to no place
        rw [List.getElem?_eq_none_iff]
        omega
      · rfl

theorem position_eq (c : Char) (rest cs : List Char) :
    position x (c :: rest) cs =
      if k = 0 then -1.0
      else ((countTo? x (Text.positions c rest cs)).map Float.ofNat).getD (-1.0) := by
  have zero : (x == 0.0) = true ↔ k = 0 := by
    rw [Number.isZero_iff finite, exact, Int.cast_eq_zero]
  simp only [position, Number.isNaN_of_isFinite finite, Bool.or_false, zero]
  cases countTo? x (Text.positions c rest cs) <;> rfl

theorem position_integer {d cs : List Char} {parts : List (List Char)} (solid : d ≠ [])
    (cut : Text.Cut d cs parts) {count : Nat} (counted : parts.length = count + 1) :
    (1 ≤ k ∧ k ≤ count →
      position x d cs = Float.ofNat (d.intercalate (parts.take k.toNat)).length) ∧
    (1 ≤ -k ∧ -k ≤ count →
      position x d cs = Float.ofNat (d.intercalate (parts.take (count + 1 + k).toNat)).length) ∧
    (k = 0 ∨ count < |k| → position x d cs = -1.0) := by
  obtain ⟨c, rest, rfl⟩ := List.exists_cons_of_ne_nil solid
  rw [position_eq finite exact, countTo?_integer finite exact, cut.positions_eq, counted,
    Nat.add_sub_cancel, List.length_map, List.length_range]
  have place {i : Nat} (inside : i < count) :
      ((List.range count).map fun i => ((c :: rest).intercalate (parts.take (i + 1))).length)[i]? =
        some ((c :: rest).intercalate (parts.take (i + 1))).length := by
    rw [List.getElem?_map, List.getElem?_range inside, Option.map_some]
  refine ⟨fun front => ?_, fun back => ?_, fun outside => ?_⟩
  · have next : (k - 1).toNat + 1 = k.toNat := by omega
    rw [if_neg (by omega), if_pos (by omega), place (by omega), next]
    rfl
  · have next : ((count : Int) + k).toNat + 1 = (count + 1 + k).toNat := by omega
    rw [if_neg (by omega), if_neg (by omega), if_pos (by omega), place (by omega), next]
    rfl
  · by_cases zero : k = 0
    · rw [if_pos zero]
    · have far : (count : Int) < |k| := outside.resolve_left zero
      rw [if_neg zero]
      split
      · rw [List.getElem?_eq_none_iff.mpr]
        · rfl
        · rw [List.length_map, List.length_range]
          rw [abs_of_pos ‹_›] at far
          omega
      · rw [if_neg]
        · rfl
        · rw [abs_of_nonpos (by omega)] at far
          omega

end Index

/-- `Split`, `Replace` and `Index` agree on the occurrences of a delimiter. The parts that `Split`
    gives make up the text again with the delimiter between them, and no part contains it. `Replace`
    puts its text between the parts instead. There is one occurrence less than there are parts;
    `Index` finds the ones from the front and from the back, as the number of characters before
    them, and no others. -/
theorem occurrences_agree (t : String) {d : String} (solid : d ≠ "") (m : Machine) :
    ∃ (parts : List String) (count : Nat), parts.length = count + 1 ∧
      (∃ list n, callWith "Split" [.text t, .text d] m = (.ok (.array list), n) ∧
        n.store.items list = parts.map .text) ∧
      d.intercalate parts = t ∧
      (∀ p ∈ parts, ¬ d.toList <:+: p.toList) ∧
      (∀ r, ∃ n, callWith "Replace" [.text t, .text d, .text r] m =
        (.ok (.text (r.intercalate parts)), n)) ∧
      ∀ (x : Float) (k : Int), x.isFinite = true → Number.value x = k →
        ∃ answer n, callWith "Index" [.text t, .text d, .number x] m = (.ok (.number answer), n) ∧
          (1 ≤ k ∧ k ≤ count →
            answer = Float.ofNat (d.intercalate (parts.take k.toNat)).length) ∧
          (1 ≤ -k ∧ -k ≤ count →
            answer = Float.ofNat (d.intercalate (parts.take (count + 1 + k).toNat)).length) ∧
          (k = 0 ∨ count < |k| → answer = -1.0) := by
  have solid' : d.toList ≠ [] := by simpa using solid
  obtain ⟨c, rest, spelled⟩ := List.exists_cons_of_ne_nil solid'
  obtain ⟨parts, cut⟩ := Text.exists_cut solid' t.toList
  have cut' : Text.Cut (c :: rest) t.toList parts := spelled ▸ cut
  obtain ⟨count, counted⟩ := Nat.exists_eq_add_one_of_ne_zero
    (fun none_left => cut.ne_nil (List.length_eq_zero_iff.mp none_left))
  have joined (r : String) (ps : List (List Char)) :
      r.intercalate (ps.map String.ofList) = String.ofList (r.toList.intercalate ps) := by
    rw [← String.toList_inj, String.toList_intercalate, List.map_map, String.toList_ofList]
    simp [Function.comp_def]
  refine ⟨parts.map String.ofList, count, by rw [List.length_map, counted], ?_, ?_, ?_, ?_, ?_⟩
  · rw [callWith_split, spelled, cut'.splitOn_eq]
    exact ⟨_, _, rfl, by simp [Machine.report, Store.items]⟩
  · rw [joined, cut.join, String.ofList_toList]
  · intro p listed
    obtain ⟨part, inside, rfl⟩ := List.mem_map.mp listed
    rw [String.toList_ofList]
    exact cut.not_infix solid' part inside
  · intro r
    rw [callWith_replace, spelled, cut'.replace_eq, joined]
    exact ⟨_, rfl⟩
  · intro x k finite exact
    rw [callWith_index t d finite exact]
    obtain ⟨front, back, outside⟩ := position_integer finite exact solid' cut counted
    refine ⟨_, _, rfl, ?_, ?_, outside⟩
    · rw [← List.map_take, joined, String.length_ofList]
      exact front
    · rw [← List.map_take, joined, String.length_ofList]
      exact back

theorem occurrences_agree_overlapping :
    "aa" ≠ "" ∧ (-1.0 : Float).isFinite = true ∧ Number.value (-1.0) = ((-1 : Int) : ℚ) ∧
      ∃ (parts : List String) (count : Nat) (answer : Float) (n : Machine),
        parts.length = count + 1 ∧ "aa".intercalate parts = "äaaa" ∧
        callWith "Index" [.text "äaaa", .text "aa", .number (-1.0)]
          (.initial {} ⟨⟨2024, 1, 1⟩, 0, 0⟩) = (.ok (.number answer), n) ∧
        (1 ≤ count → answer = Float.ofNat ("aa".intercalate (parts.take count)).length) := by
  have solid : "aa" ≠ "" := by decide
  have finite : (-1.0 : Float).isFinite = true := by decide
  have exact : Number.value (-1.0) = ((-1 : Int) : ℚ) := by
    have negative : Number.isNegative (-1.0) = true := by decide
    have size : Number.magnitude (-1.0) = ⟨2 ^ 52, -52⟩ := by decide
    rw [Number.value, negative, size, Magnitude.value]
    norm_num
  obtain ⟨parts, count, counted, _, joined, _, _, indexed⟩ :=
    occurrences_agree "äaaa" solid (.initial {} ⟨⟨2024, 1, 1⟩, 0, 0⟩)
  obtain ⟨answer, n, called, _, back, _⟩ := indexed (-1.0) (-1) finite exact
  refine ⟨solid, finite, exact, parts, count, answer, n, counted, joined, called, ?_⟩
  intro some_occurrence
  have place : ((count : Int) + 1 + -1).toNat = count := by omega
  rw [place] at back
  exact back (by omega)

end Library
end FlowScript
