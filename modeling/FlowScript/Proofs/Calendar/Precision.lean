import FlowScript.Proofs.Calendar.Written

/-!
Dates keep to their precision and to the calendar, whatever they are made from. Main statement: the
text of a date is read back as the date, down to its precision; only a date in milliseconds that
falls on a whole second comes back as one in seconds, and only a leap second within a minute as the
second after it.
-/
namespace FlowScript

open Moment

theorem Day.valid_of_valid? {d found : Day} (real : d.valid? = some found) : found.Valid := by
  obtain ⟨valid, same⟩ := Option.ite_none_right_eq_some.mp real
  cases same
  exact valid

namespace Moment

variable {m sum : Moment}

theorem carry?_eq (m : Moment) (seconds nanos : Int) : m.carry? seconds nanos =
    (m.day.addDays? ((seconds + nanos / nanosPerSecond) / secondsPerDay)).map fun day =>
      ⟨day, ((seconds + nanos / nanosPerSecond) % secondsPerDay).toNat,
        (nanos % nanosPerSecond).toNat⟩ := by
  unfold carry?
  extract_lets later
  cases m.day.addDays? (later / secondsPerDay) with
  | none => rfl
  | some day => rfl

theorem valid_of_carry? {seconds nanos : Int} (carried : m.carry? seconds nanos = some sum) :
    sum.Valid := by
  have day_scale : (0 : Int) < secondsPerDay := by decide
  have scale : (0 : Int) < nanosPerSecond := by decide
  rw [carry?_eq] at carried
  obtain ⟨day, found, same⟩ := Option.map_eq_some_iff.mp carried
  subst same
  have inside := Int.emod_lt_of_pos (seconds + nanos / nanosPerSecond) day_scale
  have small := Int.emod_lt_of_pos nanos scale
  have less : (nanos % nanosPerSecond).toNat < nanosPerSecond := by omega
  constructor
  · exact Day.valid_of_valid? found
  · have within : ((seconds + nanos / nanosPerSecond) % secondsPerDay).toNat < secondsPerDay := by
      omega
    exact within
  · exact less.trans (by decide)

theorem Valid.add {span : Span} (valid : m.Valid) (added : m.add? span = some sum) :
    sum.Valid := by
  obtain ⟨day, second, nano⟩ := valid
  simp only [add?] at added
  split at added
  · exact valid_of_carry? added
  · rename_i late
    split at added
    · exact valid_of_carry? added
    · rename_i reached
      split at added
      · exact valid_of_carry? added
      · cases added
        exact ⟨day, second, by simp only; omega⟩

theorem Valid.addMonths {count : Int} (valid : m.Valid) (moved : m.addMonths? count = some sum) :
    sum.Valid := by
  obtain ⟨day, found, rfl⟩ := Option.map_eq_some_iff.mp moved
  exact { valid with day := Day.valid_of_valid? found }

end Moment

namespace Calendar

structure Fields.Shown (f : Fields) : Prop where
  hour : f.hour ≤ 23
  minute : f.minute ≤ 59
  second : f.second ≤ 60
  nano : f.nano < nanosPerSecond

theorem field?_le {least most n : Nat} {cs rest : List Char}
    (taken : field? least most cs = some (n, rest)) : n ≤ most := by
  unfold field? at taken
  split at taken
  · obtain ⟨within, same⟩ := Option.ite_none_right_eq_some.mp taken
    cases same
    exact within.2
  · cases taken

theorem nanos?_lt {n : Nat} {cs rest : List Char} (taken : nanos? cs = some (n, rest)) :
    n < nanosPerSecond := by
  unfold nanos? at taken
  split at taken
  · cases taken
  · obtain rfl := congrArg Prod.fst (Option.some.inj taken)
    have digits : ∀ c ∈ (cs.takeWhile Char.isDigit).take 9, c.isDigit = true :=
      fun c inside => List.mem_takeWhile_imp (List.mem_of_mem_take inside)
    exact Decimal.scaled_lt digits (List.length_take_le 9 _)

theorem take?_shown {piece : Piece} {f f' : Fields} {cs rest : List Char} (shown : f.Shown)
    (taken : take? piece f cs = some (f', rest)) : f'.Shown := by
  cases piece with
  | year | month | day =>
    obtain ⟨_, _, same⟩ := Option.map_eq_some_iff.mp taken
    cases same
    exact { shown with }
  | hour =>
    obtain ⟨_, found, same⟩ := Option.map_eq_some_iff.mp taken
    cases same
    exact { shown with hour := field?_le found }
  | minute =>
    obtain ⟨_, found, same⟩ := Option.map_eq_some_iff.mp taken
    cases same
    exact { shown with minute := field?_le found }
  | second =>
    obtain ⟨_, found, same⟩ := Option.map_eq_some_iff.mp taken
    cases same
    exact { shown with second := field?_le found }
  | fraction =>
    simp only [take?] at taken
    split at taken
    · obtain ⟨_, found, same⟩ := Option.map_eq_some_iff.mp taken
      cases same
      exact { shown with nano := nanos?_lt found }
    · cases taken
      exact shown
  | blanks =>
    cases taken
    exact shown
  | mark c =>
    simp only [take?] at taken
    split at taken
    · obtain ⟨_, same⟩ := Option.ite_none_right_eq_some.mp taken
      cases same
      exact shown
    · cases taken

theorem takeAll?_shown {layout : List Piece} {f f' : Fields} {cs : List Char} (shown : f.Shown)
    (taken : takeAll? layout f cs = some f') : f'.Shown := by
  induction layout generalizing f cs with
  | nil =>
    obtain ⟨_, same⟩ := Option.ite_none_right_eq_some.mp taken
    cases same
    exact shown
  | cons piece more ih =>
    rw [takeAll?] at taken
    split at taken
    · rename_i next rest found
      exact ih (take?_shown shown found) taken
    · cases taken

theorem Fields.Shown.valid {f : Fields} {m : Moment} (shown : f.Shown)
    (named : f.moment? = some m) : m.Valid := by
  obtain ⟨hour, minute, second, nano⟩ := shown
  obtain ⟨day, _, sixtieth | other⟩ := Fields.moment?_eq_some.mp named
  · exact ⟨day, by rw [secondsPerDay]; omega, by omega⟩
  · exact ⟨day, by rw [secondsPerDay]; omega, by omega⟩

theorem valid_of_read? {m : Moment} {cs : List Char} (found : read? cs = some m) : m.Valid := by
  obtain ⟨layout, _, parsed⟩ := List.exists_of_findSome?_eq_some found
  obtain ⟨f, taken, named⟩ := Option.bind_eq_some_iff.mp parsed
  have start : ({} : Fields).Shown := by constructor <;> decide
  exact (takeAll?_shown start taken).valid named

end Calendar

namespace Date

variable {d : Date}

theorem make_precise (m : Moment) (millis : Bool) : (make m millis).Precise := by
  cases millis with
  | false => exact ⟨rfl, fun _ => rfl⟩
  | true => exact ⟨Nat.mul_mod_left _ _, fun wrong => by cases wrong⟩

theorem make_valid {m : Moment} (valid : m.Valid) (millis : Bool) :
    (make m millis).moment.Valid := by
  obtain ⟨day, second, nano⟩ := valid
  have less : (make m millis).moment.nano ≤ m.nano := by
    cases millis with
    | false => exact Nat.zero_le _
    | true => exact Nat.div_mul_le_self _ _
  exact ⟨day, second, by omega⟩

theorem make_moment (precise : d.Precise) : make d.moment d.millis = d := by
  obtain ⟨⟨day, second, nano⟩, millis⟩ := d
  obtain ⟨whole, seconds⟩ := precise
  cases millis with
  | false => simp [make, ← seconds rfl]
  | true => simp [make, Nat.div_mul_cancel (Nat.dvd_of_mod_eq_zero whole)]

/-- The dates that come about: made from a moment, read from a text, or some time from another. -/
inductive Built : Date → Prop where
  | made {m : Moment} (valid : m.Valid) (millis : Bool) : Built (make m millis)
  | read {d : Date} {cs : List Char} (found : read? cs = some d) : Built d
  | added {d sum : Date} {span : Span} (before : Built d) (reached : d.add? span = some sum) :
      Built sum
  | moved {d sum : Date} {count : Int} (before : Built d)
      (reached : d.addMonths? count = some sum) : Built sum

theorem Built.made_from (built : d.Built) : ∃ m millis, m.Valid ∧ d = make m millis := by
  induction built with
  | made valid millis => exact ⟨_, millis, valid, rfl⟩
  | read found =>
    obtain ⟨m, known, rfl⟩ := Option.map_eq_some_iff.mp found
    exact ⟨m, _, Calendar.valid_of_read? known, rfl⟩
  | added _ reached ih =>
    obtain ⟨m, millis, valid, rfl⟩ := ih
    obtain ⟨later, known, rfl⟩ := Option.map_eq_some_iff.mp reached
    exact ⟨later, _, (make_valid valid millis).add known, rfl⟩
  | moved _ reached ih =>
    obtain ⟨m, millis, valid, rfl⟩ := ih
    obtain ⟨later, known, rfl⟩ := Option.map_eq_some_iff.mp reached
    exact ⟨later, _, (make_valid valid millis).addMonths known, rfl⟩

theorem read?_text (valid : d.moment.Valid) (precise : d.Precise) :
    read? d.text.toList = some (make d.moment.shown (d.moment.shown.nano != 0)) := by
  rw [read?, text, String.toList_ofList, trim_display valid, read?_display valid precise]
  rfl

theorem Precise.shown (precise : d.Precise) : Precise { d with moment := d.moment.shown } := by
  obtain ⟨whole, seconds⟩ := precise
  simp only [Moment.shown]
  split
  · rename_i late
    have scale : nanosPerSecond = 1000 * nanosPerMilli := rfl
    have some_left : 0 < nanosPerSecond := by decide
    constructor
    · simp only
      rw [nanosPerMilli] at *
      omega
    · intro coarse
      have none_left := seconds coarse
      omega
  · exact ⟨whole, seconds⟩

theorem make_coarsest (precise : d.Precise) : make d.moment (d.moment.nano != 0) =
    if d.millis = true ∧ d.moment.nano = 0 then { d with millis := false } else d := by
  split
  · rename_i whole
    have coarse : Precise { d with millis := false } := ⟨precise.whole, fun _ => whole.2⟩
    rw [bne_eq_false_iff_eq.mpr whole.2]
    exact make_moment coarse
  · rename_i fine
    have same : (d.moment.nano != 0) = d.millis := by
      cases millis : d.millis with
      | false => rw [precise.seconds millis, bne_self_eq_false]
      | true => exact bne_iff_ne.mpr fun none_left => fine ⟨millis, none_left⟩
    rw [same, make_moment precise]

/-- A leap second after the fourth second has the text of the fifth, and is read back as that. -/
theorem leap_second_within_a_minute_reads_as_the_next :
    let d := make ⟨⟨1970, 1, 1⟩, 4, 1333000000⟩ true
    let next := make ⟨⟨1970, 1, 1⟩, 5, 333000000⟩ true
    d.Built ∧ d.display = "1970-01-01 00:00:05.333".toList ∧ read? d.text.toList = some next ∧
      next.moment ≠ d.moment := by
  intro d next
  have valid : Moment.Valid ⟨⟨1970, 1, 1⟩, 4, 1333000000⟩ := ⟨by decide, by decide, by decide⟩
  have found := read?_text (make_valid valid true) (make_precise _ true)
  exact ⟨.made valid true, by decide, found, by decide⟩

/-- The text of a date is read back as the moment that it shows, which is the date's own unless that
    is in a leap second within a minute. The precision comes back too, unless there is nothing left
    of the second: zeros after the point are read as no fraction. -/
theorem dates_read_back_from_their_text (built : d.Built) :
    read? d.text.toList =
        some (if d.millis = true ∧ d.moment.shown.nano = 0 then ⟨d.moment.shown, false⟩
          else ⟨d.moment.shown, d.millis⟩) ∧
      (d.moment.shown = d.moment ↔ (nanosPerSecond ≤ d.moment.nano → d.moment.second % 60 = 59)) ∧
      d.Precise ∧
      ∀ span sum, d.add? span = some sum → sum.millis = d.millis ∧ sum.Precise := by
  obtain ⟨m, millis, valid, rfl⟩ := built.made_from
  have precise := make_precise m millis
  refine ⟨?_, Moment.shown_eq_self _, precise, fun span sum reached => ?_⟩
  · rw [read?_text (make_valid valid millis) precise]
    exact congrArg some (make_coarsest precise.shown)
  · obtain ⟨later, _, rfl⟩ := Option.map_eq_some_iff.mp reached
    exact ⟨rfl, make_precise later _⟩

theorem dates_read_back_from_their_text_leap :
    let d := make ⟨⟨12345, 12, 31⟩, 86399, 1500000000⟩ true
    d.Built ∧ d.display = "+12345-12-31 23:59:60.500".toList ∧
      read? d.text.toList = some d := by
  have built : Built (make ⟨⟨12345, 12, 31⟩, 86399, 1500000000⟩ true) :=
    .made ⟨by decide, by decide, by decide⟩ true
  exact ⟨built, by decide, (dates_read_back_from_their_text built).1⟩

end Date
end FlowScript
