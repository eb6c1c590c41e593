import FlowScript.Text.Blank
import Mathlib.Data.List.DropRight
import Mathlib.Data.List.TakeWhile

/-!
What trimming takes off a text and what it leaves.
-/
namespace FlowScript.Text

variable {c : Char} {cs after : List Char}

theorem trimEnd_eq_rdropWhile (cs : List Char) : trimEnd cs = cs.rdropWhile isBlank := rfl

theorem trimEnd_eq_nil : trimEnd cs = [] ↔ ∀ c ∈ cs, isBlank c = true := by
  rw [trimEnd_eq_rdropWhile, List.rdropWhile_eq_nil_iff]

theorem trimEnd_append {a : Char} (last : cs.getLast? = some a) (visible : isBlank a = false)
    (blank : ∀ c ∈ after, isBlank c = true) : trimEnd (cs ++ after) = cs := by
  obtain ⟨before, rfl⟩ := List.getLast?_eq_some_iff.mp last
  have skipped : after.reverse.dropWhile isBlank = [] := by simpa using blank
  simp [trimEnd, trimStart, List.dropWhile_append, skipped, visible]

theorem exists_trim (cs : List Char) : ∃ front back, cs = front ++ (trim cs ++ back) ∧
    ∀ c ∈ front ++ back, isBlank c = true := by
  refine ⟨cs.takeWhile isBlank, (trimStart cs).rtakeWhile isBlank, ?_, ?_⟩
  · rw [trim, trimEnd_eq_rdropWhile, List.rdropWhile_append_rtakeWhile]
    exact List.takeWhile_append_dropWhile.symm
  · intro c there
    rcases List.mem_append.mp there with first | last
    · exact List.mem_takeWhile_imp first
    · exact List.mem_rtakeWhile_imp last

theorem mem_of_mem_trim (there : c ∈ trim cs) : c ∈ cs := by
  obtain ⟨front, back, split, _⟩ := exists_trim cs
  rw [split]
  simp [there]

theorem mem_trim (visible : isBlank c = false) : c ∈ trim cs ↔ c ∈ cs := by
  refine ⟨mem_of_mem_trim, fun there => ?_⟩
  obtain ⟨front, back, split, blank⟩ := exists_trim cs
  by_contra lost
  have outside : c ∈ front ++ back := by
    rw [split] at there
    simpa [lost] using there
  rw [blank c outside] at visible
  cases visible

theorem blank_of_trim (nothing : trim cs = []) : ∀ c ∈ cs, isBlank c = true := by
  obtain ⟨front, back, split, blank⟩ := exists_trim cs
  rw [split, nothing]
  exact blank

theorem trim_trimEnd (nothing : trim (trimEnd cs) = []) : trimEnd cs = [] := by
  rw [trimEnd_eq_rdropWhile, ← List.rdropWhile_idempotent]
  exact trimEnd_eq_nil.mpr (blank_of_trim nothing)

theorem not_blank_of_ascii (visible : 0x20 < c.toNat) (ascii : c.toNat < 0x80) :
    isBlank c = false := by
  simp only [isBlank, inRanges, blankRanges, List.any_cons, List.any_nil]
  simp
  omega

theorem trim_concat_blank (blank : isBlank c = true) (cs : List Char) :
    trim (cs ++ [c]) = trim cs := by
  unfold trim trimStart
  rw [List.dropWhile_append]
  split
  · rename_i nothing
    rw [List.isEmpty_iff.mp nothing, List.dropWhile_cons_of_pos blank]
    rfl
  · exact List.rdropWhile_concat_pos isBlank _ c blank

theorem trimEnd_trimEnd (cs : List Char) : trimEnd (trimEnd cs) = trimEnd cs :=
  List.rdropWhile_idempotent isBlank cs

theorem trimStart_trim (cs : List Char) : trimStart (trim cs) = trim cs := by
  have start : trim cs <+: trimStart cs := List.rdropWhile_prefix isBlank _
  cases kept : trim cs with
  | nil => rfl
  | cons c rest =>
    rw [kept] at start
    obtain ⟨after, whole⟩ := start
    refine List.dropWhile_cons_of_neg ?_
    have first := List.head?_dropWhile_not isBlank cs
    rw [← trimStart, ← whole] at first
    simpa using first

theorem digit_code (digit : c.isDigit = true) : 48 ≤ c.toNat ∧ c.toNat ≤ 57 := by
  simp only [Char.isDigit, Bool.and_eq_true, decide_eq_true_eq, ge_iff_le,
    UInt32.le_iff_toNat_le] at digit
  exact digit

theorem not_blank_of_digit (digit : c.isDigit = true) : isBlank c = false := by
  have code := digit_code digit
  exact not_blank_of_ascii (by omega) (by omega)

theorem trimStart_cons (visible : isBlank c = false) (cs : List Char) :
    trimStart (c :: cs) = c :: cs :=
  List.dropWhile_cons_of_neg (by simp [visible])

theorem trim_eq_self {a b : Char} (first : cs.head? = some a) (last : cs.getLast? = some b)
    (starts : isBlank a = false) (ends : isBlank b = false) : trim cs = cs := by
  obtain ⟨rest, rfl⟩ := List.head?_eq_some_iff.mp first
  have nothing : ∀ c ∈ [], isBlank c = true := by simp
  rw [trim, trimStart_cons starts]
  simpa using trimEnd_append last ends nothing

end FlowScript.Text
