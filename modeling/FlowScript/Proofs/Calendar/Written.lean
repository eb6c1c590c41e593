import FlowScript.Calendar.Date
import FlowScript.Proofs.Number.ReadBack
import FlowScript.Proofs.Text.Blank

/-!
The texts of moments. Every field is written in digits that are read back as the field, whatever
follows it. Main statement: the text of a date that has nothing finer than its precision is read as
the moment that it shows.
-/
namespace FlowScript

namespace Decimal

variable {ds : List Char}

theorem digitsValue_append (as bs : List Char) :
    digitsValue (as ++ bs) = 10 ^ bs.length * digitsValue as + digitsValue bs := by
  rw [digitsValue_eq, Nat.ofDigitChars_append, Nat.ofDigitChars_eq_ofDigitChars_zero]
  rfl

theorem digit_lt {c : Char} (digit : c.isDigit = true) : c.toNat - '0'.toNat < 10 := by
  have code := Text.digit_code digit
  have zero : '0'.toNat = 48 := rfl
  omega

theorem digitsValue_lt (digits : ∀ c ∈ ds, c.isDigit = true) : digitsValue ds < 10 ^ ds.length := by
  induction ds with
  | nil => decide
  | cons c rest ih =>
    rw [List.forall_mem_cons] at digits
    have first := digit_lt digits.1
    have others := ih digits.2
    have split : digitsValue (c :: rest) =
        10 ^ rest.length * (c.toNat - '0'.toNat) + digitsValue rest := by
      simpa [digitsValue] using digitsValue_append [c] rest
    rw [split, List.length_cons, Nat.pow_succ]
    nlinarith

theorem scaled_lt {places : Nat} (digits : ∀ c ∈ ds, c.isDigit = true)
    (short : ds.length ≤ places) : digitsValue ds * 10 ^ (places - ds.length) < 10 ^ places := by
  calc digitsValue ds * 10 ^ (places - ds.length)
      < 10 ^ ds.length * 10 ^ (places - ds.length) :=
        Nat.mul_lt_mul_of_pos_right (digitsValue_lt digits) (Nat.pow_pos (by decide))
    _ = 10 ^ places := by rw [← Nat.pow_add, Nat.add_sub_cancel' short]

theorem le_foldl_digits (n : Nat) (ds : List Char) :
    n ≤ ds.foldl (fun n c => 10 * n + (c.toNat - '0'.toNat)) n := by
  induction ds generalizing n with
  | nil => exact Nat.le_refl n
  | cons c rest ih =>
    have step := ih (10 * n + (c.toNat - '0'.toNat))
    rw [List.foldl_cons]
    omega

theorem valueUpTo_eq {limit : Nat} (small : digitsValue ds < limit) :
    valueUpTo limit ds = digitsValue ds := by
  unfold valueUpTo digitsValue at *
  generalize 0 = n at *
  induction ds generalizing n with
  | nil => rfl
  | cons c rest ih =>
    have before := le_foldl_digits n (c :: rest)
    rw [List.foldl_cons, List.foldl_cons, if_pos (by omega)]
    exact ih _ small

end Decimal

theorem Day.monthLength_le (year : Int) (month : Nat) : monthLength year month ≤ 31 := by
  cases month with
  | zero => exact Nat.zero_le 31
  | succ place =>
    cases found : (monthLengths year)[place]? with
    | none => simp [monthLength, found]
    | some length =>
      have among := List.mem_of_getElem? found
      simp only [monthLengths, List.mem_cons, List.not_mem_nil, or_false] at among
      simp only [monthLength, found, Option.getD_some]
      split at among <;> omega

theorem Day.month_within {year : Int} {month : Nat} (some_days : 1 ≤ monthLength year month) :
    1 ≤ month ∧ month ≤ 12 := by
  cases month with
  | zero => simp [monthLength] at some_days
  | succ place =>
    by_contra outside
    have beyond : (monthLengths year)[place]? = none := by
      rw [List.getElem?_eq_none_iff]
      have count : (monthLengths year).length = 12 := rfl
      omega
    simp [monthLength, beyond] at some_days

namespace Moment

/-- Any second may be a leap second, also one that does not end a minute. -/
structure Valid (m : Moment) : Prop where
  day : m.day.Valid
  second : m.second < secondsPerDay
  nano : m.nano < 2 * nanosPerSecond

theorem Valid.shown_second {m : Moment} (valid : m.Valid) :
    m.second % 60 + m.nano / nanosPerSecond ≤ 60 := by
  have small := valid.nano
  rw [nanosPerSecond] at *
  omega

/-- The moment that a reader takes the text for: within a minute a leap second looks like the
    second after it. -/
def shown (m : Moment) : Moment :=
  if nanosPerSecond ≤ m.nano ∧ m.second % 60 ≠ 59 then
    { m with second := m.second + 1, nano := m.nano - nanosPerSecond }
  else m

theorem shown_eq_self (m : Moment) :
    m.shown = m ↔ (nanosPerSecond ≤ m.nano → m.second % 60 = 59) := by
  rw [shown, ite_eq_right_iff, and_imp]
  constructor
  · intro same late
    by_contra inside
    have later := congrArg Moment.second (same late inside)
    exact absurd later (Nat.succ_ne_self _)
  · intro ends late inside
    exact absurd (ends late) inside

end Moment

namespace Calendar

open Moment

def padded (width n : Nat) : List Char := padLeft width '0' (Nat.toDigits 10 n)

theorem padded_digits (width n : Nat) : ∀ c ∈ padded width n, c.isDigit = true := by
  intro c inside
  rcases List.mem_append.mp inside with zero | digit
  · rw [List.eq_of_mem_replicate zero]
    rfl
  · exact Nat.isDigit_of_mem_toDigits (by decide) (by decide) digit

theorem padded_value (width n : Nat) : Decimal.digitsValue (padded width n) = n := by
  rw [padded, padLeft, Decimal.digitsValue_eq, Nat.ofDigitChars_append,
    Nat.ofDigitChars_replicate_zero, Nat.mul_zero, Nat.ofDigitChars_ten_toDigits]

theorem padded_length {width n : Nat} (some_width : 0 < width) (small : n < 10 ^ width) :
    (padded width n).length = width := by
  have short := (Nat.length_toDigits_le_iff (by decide) some_width).mpr small
  rw [padded, padLeft, List.length_append, List.length_replicate]
  omega

theorem padded_ne_nil (width n : Nat) : padded width n ≠ [] := by
  rw [padded, padLeft]
  exact List.append_ne_nil_of_right_ne_nil _ Nat.toDigits_ne_nil

theorem writeTwo_eq : ∀ n < 100, writeTwo n .zero = padded 2 n := by
  decide

theorem trimStart_digits {ds : List Char} (solid : ds ≠ []) (digits : ∀ c ∈ ds, c.isDigit = true)
    (rest : List Char) : Text.trimStart (ds ++ rest) = ds ++ rest := by
  cases ds with
  | nil => exact absurd rfl solid
  | cons c more => exact Text.trimStart_cons (Text.not_blank_of_digit (digits c (by simp))) _

theorem digits?_append {ds : List Char} (solid : ds ≠ []) (digits : ∀ c ∈ ds, c.isDigit = true)
    (rest : List Char) :
    digits? ds.length (ds ++ rest) = some (Decimal.digitsValue ds, rest) := by
  have all : ds.takeWhile Char.isDigit = ds := List.takeWhile_eq_self_iff.mpr digits
  rw [digits?, List.take_left, all]
  cases ds with
  | nil => exact absurd rfl solid
  | cons c more => simp

theorem digits?_padded {width n : Nat} (some_width : 0 < width) (small : n < 10 ^ width)
    (rest : List Char) : digits? width (padded width n ++ rest) = some (n, rest) := by
  have read := digits?_append (padded_ne_nil width n) (padded_digits width n) rest
  rwa [padded_length some_width small, padded_value] at read

theorem field?_writeTwo {least most n : Nat} (low : least ≤ n) (high : n ≤ most)
    (small : most < 100) (rest : List Char) :
    field? least most (writeTwo n .zero ++ rest) = some (n, rest) := by
  rw [field?, writeTwo_eq n (by omega),
    trimStart_digits (padded_ne_nil 2 n) (padded_digits 2 n),
    digits?_padded (by decide) (by omega)]
  simp [low, high]

theorem field?_space (least most : Nat) (cs : List Char) :
    field? least most (Text.trimStart (' ' :: cs)) = field? least most cs := by
  have space : Text.trimStart (' ' :: cs) = Text.trimStart cs :=
    List.dropWhile_cons_of_pos (by decide)
  have again : Text.trimStart (Text.trimStart cs) = Text.trimStart cs :=
    List.dropWhile_idempotent ..
  rw [field?, space, again, ← field?]

theorem longYear?_padded {n : Nat} (small : n < yearLimit) (rest : List Char) :
    longYear? (padded 4 n ++ '-' :: rest) = some (n, '-' :: rest) := by
  have stop : ∀ c ∈ ('-' :: rest).head?, c.isDigit = false := by
    intro c head
    rw [List.head?_cons, Option.mem_some_iff] at head
    rw [← head]
    rfl
  obtain ⟨taken, left⟩ := span_of_stop (padded_digits 4 n) stop
  have value : Decimal.valueUpTo yearLimit (padded 4 n) = n := by
    rw [Decimal.valueUpTo_eq (by rwa [padded_value]), padded_value]
  rw [longYear?, taken, left]
  cases shown : padded 4 n with
  | nil => exact absurd shown (padded_ne_nil 4 n)
  | cons c more => rw [← value, shown]

theorem writeYear_eq (year : Int) : writeYear year .zero =
    (if year < 0 then ['-'] else if year < 10000 then [] else ['+']) ++ padded 4 year.natAbs := by
  unfold writeYear writeWide
  by_cases negative : year < 0
  · rw [if_neg (by omega)]
    simp [negative, padded]
  · by_cases short : year < 10000
    · rw [if_pos (by omega)]
      simp [negative, short, padded]
    · rw [if_neg (by omega)]
      simp [negative, short, padded]

theorem signedYear?_padded {n : Nat} (short : n < 10 ^ 4) (rest : List Char) :
    signedYear? (padded 4 n ++ rest) = some ((n : Int), rest) := by
  have read := digits?_padded (by decide) short rest
  have no_sign : ∀ c ∈ (padded 4 n ++ rest).head?, c.isDigit = true := by
    intro c head
    rw [List.head?_append_of_ne_nil _ (padded_ne_nil 4 n)] at head
    exact padded_digits 4 n c (List.mem_of_mem_head? head)
  unfold signedYear?
  split
  · rename_i minus
    rw [minus] at no_sign
    exact absurd (no_sign '-' rfl) (by decide)
  · rename_i plus
    rw [plus] at no_sign
    exact absurd (no_sign '+' rfl) (by decide)
  · rw [read]
    rfl

theorem signedYear?_writeYear {year : Int} (near : year.natAbs < yearLimit) (rest : List Char) :
    signedYear? (writeYear year .zero ++ '-' :: rest) = some (year, '-' :: rest) := by
  have long := longYear?_padded near rest
  rw [writeYear_eq, List.append_assoc]
  split
  · rename_i negative
    have back : -(year.natAbs : Int) = year := by omega
    simp only [List.singleton_append, signedYear?, long, Option.map_some, back]
  · rename_i nonneg
    have back : (year.natAbs : Int) = year := by omega
    split
    · rename_i short
      have few : year.natAbs < 10 ^ 4 := by omega
      rw [List.nil_append, signedYear?_padded few, back]
    · simp only [List.singleton_append, signedYear?, long, Option.map_some, back]

theorem writeYear_visible (year : Int) :
    ∃ c more, writeYear year .zero = c :: more ∧ Text.isBlank c = false := by
  rw [writeYear_eq]
  split
  · exact ⟨'-', _, rfl, by decide⟩
  · split
    · cases shown : padded 4 year.natAbs with
      | nil => exact absurd shown (padded_ne_nil 4 _)
      | cons c more =>
        have digit := padded_digits 4 year.natAbs c (by simp [shown])
        exact ⟨c, more, rfl, Text.not_blank_of_digit digit⟩
    · exact ⟨'+', _, rfl, by decide⟩

theorem trimStart_writeYear (year : Int) (rest : List Char) :
    Text.trimStart (writeYear year .zero ++ rest) = writeYear year .zero ++ rest := by
  obtain ⟨c, more, shown, visible⟩ := writeYear_visible year
  rw [shown]
  exact Text.trimStart_cons visible _

/-- The fields that the clock shows at a moment. -/
def Fields.ofMoment (m : Moment) : Fields where
  year := m.day.year
  month := m.day.month
  day := m.day.day
  hour := m.hour
  minute := m.minute
  second := m.second % 60 + m.nano / nanosPerSecond
  nano := m.nano % nanosPerSecond

theorem second_split (m : Moment) :
    (m.hour * 60 + m.minute) * 60 + m.second % 60 = m.second := by
  rw [hour, minute]
  omega

theorem Fields.moment?_eq_some {f : Fields} {m : Moment} : f.moment? = some m ↔
    m.day.Valid ∧ m.day = ⟨f.year, f.month, f.day⟩ ∧
      (f.second = 60 ∧ m.second = (f.hour * 60 + f.minute) * 60 + 59 ∧
          m.nano = nanosPerSecond + f.nano ∨
        f.second ≠ 60 ∧ m.second = (f.hour * 60 + f.minute) * 60 + f.second ∧ m.nano = f.nano) := by
  obtain ⟨day, second, nano⟩ := m
  unfold Fields.moment? Day.valid?
  grind

theorem Fields.moment?_ofMoment {m : Moment} (valid : m.Valid) :
    (Fields.ofMoment m).moment? = some m.shown := by
  have start := second_split m
  have small := valid.nano
  have day : m.shown.day = m.day := by
    rw [shown]
    split <;> rfl
  rw [Fields.moment?_eq_some, day]
  refine ⟨valid.day, rfl, ?_⟩
  simp only [Fields.ofMoment, shown]
  rw [nanosPerSecond] at *
  split
  · simp only
    omega
  · omega

theorem nanos?_digits {ds : List Char} (solid : ds ≠ []) (digits : ∀ c ∈ ds, c.isDigit = true)
    (short : ds.length ≤ 9) :
    nanos? ds = some (Decimal.digitsValue ds * 10 ^ (9 - ds.length), []) := by
  have taken : ds.takeWhile Char.isDigit = ds := List.takeWhile_eq_self_iff.mpr digits
  have left : ds.dropWhile Char.isDigit = [] := List.dropWhile_eq_nil_iff.mpr digits
  rw [nanos?, taken, left]
  cases ds with
  | nil => exact absurd rfl solid
  | cons c more =>
    simp only [List.take_of_length_le short]
    rfl

theorem digitsValue_take {width n : Nat} (some_width : 0 < width) (small : n < 10 ^ width)
    (places : Nat) :
    Decimal.digitsValue ((padded width n).take places) = n / 10 ^ (width - places) := by
  have split := Decimal.digitsValue_append ((padded width n).take places)
    ((padded width n).drop places)
  have digits : ∀ c ∈ (padded width n).drop places, c.isDigit = true :=
    fun c inside => padded_digits width n c (List.mem_of_mem_drop inside)
  have below := Decimal.digitsValue_lt digits
  rw [List.length_drop, padded_length some_width small] at split below
  rw [List.take_append_drop, padded_value] at split
  conv_rhs => rw [split]
  rw [Nat.mul_add_div (Nat.pow_pos (by decide)), Nat.div_eq_of_lt below, Nat.add_zero]

theorem fractionDigits_digits (m : Moment) (places : Nat) :
    ∀ c ∈ fractionDigits m places, c.isDigit = true :=
  fun c inside => padded_digits 9 _ c (List.mem_of_mem_take inside)

theorem fraction_lt (m : Moment) : m.nano % nanosPerSecond < 10 ^ 9 := Nat.mod_lt _ (by decide)

theorem fractionDigits_length (m : Moment) : (fractionDigits m 3).length = 3 := by
  rw [fractionDigits, ← padded, List.length_take, padded_length (by decide) (fraction_lt m)]
  rfl

theorem fractionDigits_ne_nil (m : Moment) : fractionDigits m 3 ≠ [] := by
  rw [← List.length_pos_iff, fractionDigits_length]
  decide

theorem nanos?_fractionDigits {m : Moment} (whole : m.nano % nanosPerMilli = 0) :
    nanos? (fractionDigits m 3) = some (m.nano % nanosPerSecond, []) := by
  have length := fractionDigits_length m
  have value : Decimal.digitsValue (fractionDigits m 3) = m.nano % nanosPerSecond / 10 ^ 6 :=
    digitsValue_take (by decide) (fraction_lt m) 3
  have kept : m.nano % nanosPerSecond / 10 ^ 6 * 10 ^ (9 - 3) = m.nano % nanosPerSecond := by
    rw [nanosPerMilli] at whole
    rw [nanosPerSecond]
    omega
  rw [nanos?_digits (fractionDigits_ne_nil m) (fractionDigits_digits m 3) (by omega), length,
    value, kept]

theorem write_stamp (m : Moment) (after : List Item) :
    write m (isoDateItems ++ .literal ' ' :: clockItems ++ after) =
      writeYear m.day.year .zero ++ '-' :: (writeTwo m.day.month .zero ++ '-' ::
        (writeTwo m.day.day .zero ++ ' ' :: (writeTwo m.hour .zero ++ ':' ::
          (writeTwo m.minute .zero ++ ':' ::
            (writeTwo (m.second % 60 + m.nano / nanosPerSecond) .zero ++ write m after))))) := by
  simp [write, isoDateItems, clockItems, zeroPadded, writeItem, writeField]

theorem takeAll?_write {m : Moment} (valid : m.Valid) (more : List Piece) (after : List Item) :
    takeAll? (isoDay ++ .blanks :: clock ++ more) {}
        (write m (isoDateItems ++ .literal ' ' :: clockItems ++ after)) =
      takeAll? more { Fields.ofMoment m with nano := 0 } (write m after) := by
  obtain ⟨first, last, some_day, in_month⟩ := valid.day
  obtain ⟨month_low, month_high⟩ := Day.month_within (some_day.trans in_month)
  have day_high := in_month.trans (Day.monthLength_le _ _)
  have near : m.day.year.natAbs < yearLimit := by
    simp only [Day.firstYear, Day.lastYear] at first last
    rw [yearLimit]
    omega
  have hours : m.hour ≤ 23 := by
    have inside := valid.second
    rw [secondsPerDay] at inside
    rw [hour]
    omega
  have minutes : m.minute ≤ 59 := by
    rw [minute]
    omega
  have month := field?_writeTwo month_low month_high (by decide)
  have day := field?_writeTwo some_day day_high (by decide)
  have hour := field?_writeTwo (Nat.zero_le m.hour) hours (by decide)
  have minute := field?_writeTwo (Nat.zero_le m.minute) minutes (by decide)
  have second := field?_writeTwo (Nat.zero_le _) valid.shown_second (by decide)
  rw [write_stamp]
  simp [isoDay, clock, takeAll?, take?, trimStart_writeYear,
    signedYear?_writeYear near, month, day, field?_space,
    hour, minute, second, Fields.ofMoment]

theorem read?_of_first {m : Moment} {cs : List Char} {f : Fields}
    (taken : takeAll? (isoDay ++ .blanks :: clock ++ [.fraction]) {} cs = some f)
    (named : f.moment? = some m) : read? cs = some m := by
  rw [read?, layouts, List.findSome?_cons, parse?, taken, Option.bind_some, named]

end Calendar

namespace Date

open Moment Calendar

/-- Nothing in the date is finer than its precision. -/
structure Precise (d : Date) : Prop where
  whole : d.moment.nano % nanosPerMilli = 0
  seconds : d.millis = false → d.moment.nano = 0

variable {d : Date} (valid : d.moment.Valid)

theorem display_eq (d : Date) : d.display =
    write d.moment (isoDateItems ++ .literal ' ' :: clockItems ++
      if d.millis then [.fraction 3] else []) := rfl

include valid

theorem read?_display (precise : d.Precise) : Calendar.read? d.display = some d.moment.shown := by
  have named := Fields.moment?_ofMoment valid
  rw [display_eq]
  cases millis : d.millis with
  | false =>
    have none_left := precise.seconds millis
    have same : { Fields.ofMoment d.moment with nano := 0 } = Fields.ofMoment d.moment := by
      simp [Fields.ofMoment, none_left]
    refine read?_of_first ?_ named
    rw [takeAll?_write valid, same]
    rfl
  | true =>
    refine read?_of_first ?_ named
    have fraction := nanos?_fractionDigits precise.whole
    rw [takeAll?_write valid]
    simp [write, writeItem, takeAll?, take?, fraction, Fields.ofMoment]

theorem display_ends : ∃ front ds, d.display = front ++ ds ∧ ds ≠ [] ∧
    ∀ c ∈ ds, c.isDigit = true := by
  obtain ⟨m, millis⟩ := d
  cases millis with
  | false =>
    have seconds := writeTwo_eq _ (Nat.lt_of_le_of_lt valid.shown_second (by decide))
    refine ⟨write m (isoDateItems ++ .literal ' ' :: clockItems.dropLast),
      padded 2 (m.second % 60 + m.nano / nanosPerSecond), ?_, padded_ne_nil 2 _, padded_digits 2 _⟩
    rw [← seconds]
    simp [display, layout, write, clockItems, zeroPadded, writeItem, writeField]
  | true =>
    refine ⟨write m (isoDateItems ++ .literal ' ' :: clockItems) ++ ['.'], _, ?_,
      fractionDigits_ne_nil m, fractionDigits_digits m 3⟩
    simp [display, layout, write, writeItem]

theorem trim_display : Text.trim d.display = d.display := by
  obtain ⟨front, ds, split, solid, digits⟩ := display_ends valid
  obtain ⟨c, more, shown, visible⟩ := writeYear_visible d.moment.day.year
  have first : d.display.head? = some c := by
    rw [display_eq, write_stamp, shown]
    rfl
  have last : d.display.getLast? = some (ds.getLast solid) := by
    rw [split, List.getLast?_append_of_ne_nil _ solid, List.getLast?_eq_some_getLast solid]
  have digit := digits _ (List.getLast_mem solid)
  exact Text.trim_eq_self first last visible (Text.not_blank_of_digit digit)

end Date
end FlowScript
