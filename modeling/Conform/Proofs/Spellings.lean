import Conform.Coercion
import Conform.Proofs.Decimal.Numerals
import Mathlib.Tactic.FieldSimp
import Mathlib.Tactic.IntervalCases

/-!
# The spellings of timestamps

A timestamp can be written in many ways: with a `T` or a space, with seconds or without them, with a
fraction of up to nine digits, and with `Z`, hours and minutes, or nothing at its end.  A `Spelling`
is one of these ways, digit by digit, whether or not there is such a day or such a time.  It is
`Spelling.Possible` when all its numbers are in their ranges, and then it denotes exactly one
timestamp (`Spelling.Denotes`), which has the fields as they are written.

Neither of these conditions mentions the reader.  The reader takes the characters of a spelling as
what they denote (`Spelling.ofChars?_chars_iff`), and it takes nothing but the characters of
spellings (`exists_spelling_of_ofChars?`).  Together these are the language of timestamps
(`parseTimestamp_language`).
-/

namespace Conform.Timestamp

open Decimal

/-! ## Spellings -/

/-- What stands between the date and the time. -/
inductive Separator where
  | letter | space

/-- The character of a separator. -/
def Separator.char : Separator → Char
  | letter => 'T'
  | space => ' '

/-- The digits after the point of a second. -/
structure Fraction where
  count : Nat
  digits : Numeral count
  one_at_least : 1 ≤ count
  nine_at_most : count ≤ 9

/-- The seconds, when they are written. -/
structure Seconds where
  whole : Numeral 2
  fraction : Option Fraction

/-- What stands at the end. -/
inductive Zone where
  | unknown
  | utc
  | signed (west : Bool) (hours minutes : Numeral 2)

/-- A way to write a timestamp. -/
structure Spelling where
  year : Numeral 4
  month : Numeral 2
  day : Numeral 2
  separator : Separator
  hour : Numeral 2
  minute : Numeral 2
  seconds : Option Seconds
  zone : Zone

/-! ### Characters -/

/-- A point and digits, or nothing. -/
def Fraction.chars : Option Fraction → List Char
  | none => []
  | some fraction => '.' :: fraction.digits.chars

/-- A colon, two digits and a fraction, or nothing. -/
def Seconds.chars : Option Seconds → List Char
  | none => []
  | some seconds => ':' :: (seconds.whole.chars ++ Fraction.chars seconds.fraction)

/-- Nothing, `Z`, or a sign with hours and minutes. -/
def Zone.chars : Zone → List Char
  | unknown => []
  | utc => ['Z']
  | signed west hours minutes =>
    (if west then '-' else '+') :: (hours.chars ++ ':' :: minutes.chars)

namespace Spelling

/-- All characters of a spelling. -/
def chars (spelling : Spelling) : List Char :=
  spelling.year.chars ++ '-' :: (spelling.month.chars ++ '-' :: (spelling.day.chars ++
    spelling.separator.char :: (spelling.hour.chars ++ ':' :: (spelling.minute.chars ++
      (Seconds.chars spelling.seconds ++ spelling.zone.chars)))))

/-- The text of a spelling. -/
def text (spelling : Spelling) : String := String.ofList spelling.chars

end Spelling

/-! ### Numbers -/

/-- The value of the digits after the point, as a part of a second. -/
def Fraction.amount : Option Fraction → ℚ
  | none => 0
  | some fraction => fraction.digits.value / 10 ^ fraction.count

/-- The whole seconds; none are meant when none are written. -/
def Seconds.number : Option Seconds → Nat
  | none => 0
  | some seconds => seconds.whole.value

/-- The part of a second beyond the whole ones. -/
def Seconds.part (seconds : Option Seconds) : ℚ :=
  Fraction.amount (seconds.bind Seconds.fraction)

/-- The seconds east of UTC, if anything is said of them. -/
def Zone.east? : Zone → Option Int
  | unknown => none
  | utc => some 0
  | signed west hours minutes =>
    let size : Int := 3600 * hours.value + 60 * minutes.value
    some (if west then -size else size)

/-- Hours and minutes of a zone are below 24 and 60. -/
def Zone.Possible : Zone → Prop
  | unknown => True
  | utc => True
  | signed _ hours minutes => hours.value ≤ 23 ∧ minutes.value ≤ 59

/-- The length of a month in the Gregorian calendar.  Of the years that four divides, the full
centuries are leap years only when four hundred divides them. -/
def monthLength (year month : Nat) : Nat :=
  if month = 2 then if 4 ∣ year ∧ (100 ∣ year → 400 ∣ year) then 29 else 28
  else if month ∈ [4, 6, 9, 11] then 30
  else 31

namespace Spelling

/-- There is such a day, such a time of day and such an offset. -/
structure Possible (spelling : Spelling) : Prop where
  month : 1 ≤ spelling.month.value ∧ spelling.month.value ≤ 12
  day : 1 ≤ spelling.day.value ∧
    spelling.day.value ≤ monthLength spelling.year.value spelling.month.value
  hour : spelling.hour.value ≤ 23
  minute : spelling.minute.value ≤ 59
  second : Seconds.number spelling.seconds ≤ 59
  zone : spelling.zone.Possible

/-- The timestamp has the fields that are written. -/
structure Denotes (spelling : Spelling) (stamp : Timestamp) : Prop where
  year : stamp.wall.date.year = spelling.year.value
  month : stamp.wall.date.month = spelling.month.value
  day : stamp.wall.date.day = spelling.day.value
  hour : stamp.wall.time.hour = spelling.hour.value
  minute : stamp.wall.time.minute = spelling.minute.value
  second : stamp.wall.time.second = Seconds.number spelling.seconds
  nanos : (stamp.wall.time.nanos : ℚ) / 10 ^ 9 = Seconds.part spelling.seconds
  offset : stamp.offset.map Offset.seconds = spelling.zone.east?

end Spelling

end Timestamp

/-! ## The calendar and the clock -/

lemma isLeapYear_iff (year : Nat) :
    isLeapYear year = true ↔ 4 ∣ year ∧ (100 ∣ year → 400 ∣ year) := by
  simp only [isLeapYear, Bool.and_eq_true, Bool.or_eq_true, beq_iff_eq, bne_iff_ne]
  omega

lemma daysInMonth_eq_monthLength (year : Nat) {month : Nat} (h : 1 ≤ month ∧ month ≤ 12) :
    daysInMonth year month = Timestamp.monthLength year month := by
  obtain ⟨hlow, hhigh⟩ := h
  have hleap := isLeapYear_iff year
  interval_cases month
  case «2» => simp [daysInMonth, Timestamp.monthLength, hleap]
  all_goals rfl

lemma Date.of?_eq_some_iff {year : Int} {month day : Nat} {date : Date} :
    of? year month day = some date ↔ date.year = year ∧ date.month = month ∧ date.day = day := by
  simp only [of?, Option.dite_none_right_eq_some, Option.some.injEq]
  constructor
  · rintro ⟨_, _, _, rfl⟩
    exact ⟨rfl, rfl, rfl⟩
  · rintro ⟨rfl, rfl, rfl⟩
    exact ⟨date.year_covered, date.month_exists, date.day_exists, rfl⟩

lemma TimeOfDay.of?_eq_some_iff {hour minute second nanos : Nat} {time : TimeOfDay} :
    of? hour minute second nanos = some time ↔
      time.hour = hour ∧ time.minute = minute ∧ time.second = second ∧ time.nanos = nanos := by
  simp only [of?, Option.dite_none_right_eq_some, Option.some.injEq]
  constructor
  · rintro ⟨_, _, _, _, rfl⟩
    exact ⟨rfl, rfl, rfl, rfl⟩
  · rintro ⟨rfl, rfl, rfl, rfl⟩
    exact ⟨time.hour_exists, time.minute_exists, time.second_exists, time.nanos_exist, rfl⟩

lemma Offset.of?_eq_some_iff {seconds : Int} {offset : Offset} :
    of? seconds = some offset ↔ offset.seconds = seconds := by
  simp only [of?, Option.dite_none_right_eq_some, Option.some.injEq]
  constructor
  · rintro ⟨_, _, rfl⟩
    rfl
  · rintro rfl
    exact ⟨offset.west_of_a_day, offset.east_of_a_day, rfl⟩

namespace Timestamp

open Decimal

/-! ## Fractions of a second -/

/-- The nanoseconds in the part of a second after the point. -/
def Fraction.nanos : Option Fraction → Nat
  | none => 0
  | some fraction => fraction.digits.value * 10 ^ (9 - fraction.count)

lemma Fraction.nanos_lt (fraction : Option Fraction) : nanos fraction < nanosPerSecond := by
  cases fraction with
  | none => exact Nat.zero_lt_succ _
  | some fraction =>
    obtain ⟨count, digits, -, hnine⟩ := fraction
    have hsum : count + (9 - count) = 9 := by omega
    have hpos : 0 < 10 ^ (9 - count) := Nat.pow_pos (by norm_num)
    calc digits.value * 10 ^ (9 - count)
        < 10 ^ count * 10 ^ (9 - count) := Nat.mul_lt_mul_of_pos_right digits.value_lt hpos
      _ = nanosPerSecond := by rw [← Nat.pow_add, hsum]; rfl

/-- Nanoseconds are what the digits after the point say. -/
lemma Fraction.nanos_eq_iff (fraction : Option Fraction) (n : Nat) :
    n = nanos fraction ↔ (n : ℚ) / 10 ^ 9 = amount fraction := by
  have hamount : amount fraction * 10 ^ 9 = (nanos fraction : Nat) := by
    cases fraction with
    | none => simp [nanos, amount]
    | some fraction =>
      obtain ⟨count, digits, -, hnine⟩ := fraction
      have hpow : (10 : ℚ) ^ 9 = 10 ^ count * 10 ^ (9 - count) := by
        rw [← pow_add, Nat.add_sub_cancel' hnine]
      rw [amount, nanos, hpow]
      push_cast
      field_simp
  rw [div_eq_iff (by norm_num), hamount, Nat.cast_inj]

/-! ## Reading spellings -/

/-- What may follow a time of day: it goes on with neither a digit nor a point. -/
def EndsTime (rest : List Char) : Prop := ∀ c ∈ rest.head?, c.isDigit = false ∧ c ≠ '.'

@[simp] lemma mark?_cons (c : Char) (rest : List Char) : mark? c (c :: rest) = some rest := by
  rw [mark?, if_pos rfl]

lemma date?_chars (year : Numeral 4) (month day : Numeral 2) (rest : List Char) :
    date? (year.chars ++ '-' :: (month.chars ++ '-' :: (day.chars ++ rest))) =
      (Date.of? year.value month.value day.value).bind fun date => some (date, rest) := by
  simp only [date?, Option.bind_eq_bind, Option.bind_some, mark?_cons, Numeral.number?_chars]
  rfl

lemma separator?_char (separator : Separator) (rest : List Char) :
    separator? (separator.char :: rest) = some rest := by
  cases separator <;> rfl

lemma fraction?_chars (fraction : Option Fraction) {rest : List Char} (hrest : EndsTime rest) :
    fraction? (Fraction.chars fraction ++ rest) = some (Fraction.nanos fraction, rest) := by
  cases fraction with
  | none =>
    cases rest with
    | nil => rfl
    | cons c rest =>
      have hc : c ≠ '.' := (hrest c rfl).2
      simp [Fraction.chars, fraction?, hc, Fraction.nanos]
  | some fraction =>
    obtain ⟨count, digits, hone, hnine⟩ := fraction
    have hspan : span (digits.chars ++ rest) = (digits.chars, rest) :=
      span_append (fun c => Numeral.isDigit_of_mem_chars) fun c hc => (hrest c hc).1
    simp only [Fraction.chars, List.cons_append, fraction?, hspan, Numeral.length_chars,
      Numeral.value_chars, if_pos (And.intro hone hnine)]
    rfl

lemma endsTime_chars (zone : Zone) : EndsTime zone.chars := by
  intro c hc
  cases zone with
  | unknown => cases hc
  | utc =>
    cases hc
    decide
  | signed west hours minutes =>
    cases west <;> cases hc <;> decide

lemma seconds?_chars (seconds : Option Seconds) (zone : Zone) :
    seconds? (Seconds.chars seconds ++ zone.chars) =
      some (Seconds.number seconds, Fraction.nanos (seconds.bind Seconds.fraction),
        zone.chars) := by
  cases seconds with
  | none =>
    cases zone with
    | signed west hours minutes => cases west <;> rfl
    | _ => rfl
  | some seconds =>
    simp only [Seconds.chars, List.cons_append, List.append_assoc, seconds?, Option.bind_eq_bind,
      Numeral.number?_chars, Option.bind_some, fraction?_chars _ (endsTime_chars zone)]
    rfl

lemma time?_chars (hour minute : Numeral 2) (seconds : Option Seconds) (zone : Zone) :
    time? (hour.chars ++ ':' :: (minute.chars ++ (Seconds.chars seconds ++ zone.chars))) =
      (TimeOfDay.of? hour.value minute.value (Seconds.number seconds)
        (Fraction.nanos (seconds.bind Seconds.fraction))).bind fun time =>
          some (time, zone.chars) := by
  simp only [time?, Option.bind_eq_bind, Option.bind_some, mark?_cons, Numeral.number?_chars,
    seconds?_chars]
  rfl

lemma hoursAndMinutes?_chars (hours minutes : Numeral 2) :
    hoursAndMinutes? (hours.chars ++ ':' :: minutes.chars) =
      if hours.value ≤ 23 ∧ minutes.value ≤ 59 then
        some (hours.value * 3600 + minutes.value * 60)
      else none := by
  have hminutes := minutes.number?_chars []
  rw [List.append_nil] at hminutes
  simp only [hoursAndMinutes?, Option.bind_eq_bind, Option.bind_some, mark?_cons,
    Numeral.number?_chars, hminutes, and_true]

lemma offset?_signed (west : Bool) (text : List Char) :
    offset? ((if west then '-' else '+') :: text) = (hoursAndMinutes? text).bind fun size =>
      (Offset.of? (if west then -(size : Int) else size)).map some := by
  cases west <;> simp only [offset?, Option.map_eq_bind] <;> rfl

lemma map_of?_eq_some_iff {seconds : Int} {offset : Option Offset} :
    (Offset.of? seconds).map some = some offset ↔ offset.map Offset.seconds = some seconds := by
  cases offset <;> simp [Offset.of?_eq_some_iff]

/-- The end of a spelling is read as what it says, if there is such an offset. -/
lemma offset?_chars_iff (zone : Zone) (offset : Option Offset) :
    offset? zone.chars = some offset ↔
      zone.Possible ∧ offset.map Offset.seconds = zone.east? := by
  cases zone with
  | unknown => simp [Zone.chars, offset?, Zone.Possible, Zone.east?, eq_comm]
  | utc =>
    have hutc : offset? Zone.utc.chars = (Offset.of? 0).map some := rfl
    rw [hutc, map_of?_eq_some_iff, Zone.Possible, true_and, Zone.east?]
  | signed west hours minutes =>
    have hsize : ((hours.value * 3600 + minutes.value * 60 : Nat) : Int) =
        3600 * hours.value + 60 * minutes.value := by omega
    rw [Zone.chars, offset?_signed, hoursAndMinutes?_chars, Zone.Possible, Zone.east?]
    split
    · rename_i hpossible
      rw [Option.bind_some, hsize, map_of?_eq_some_iff, and_iff_right hpossible]
    · rename_i himpossible
      exact iff_of_false (by simp) fun h => himpossible h.1

/-- Every timestamp is one of a day and a time that there are. -/
lemma Spelling.Denotes.possible {spelling : Spelling} {stamp : Timestamp}
    (h : spelling.Denotes stamp) (hzone : spelling.zone.Possible) : spelling.Possible := by
  have hmonth := stamp.wall.date.month_exists
  have hday := stamp.wall.date.day_exists
  have hhour := stamp.wall.time.hour_exists
  have hminute := stamp.wall.time.minute_exists
  have hsecond := stamp.wall.time.second_exists
  rw [h.month] at hmonth
  rw [h.year, h.month, h.day, daysInMonth_eq_monthLength _ hmonth] at hday
  rw [h.hour] at hhour
  rw [h.minute] at hminute
  rw [h.second] at hsecond
  exact ⟨hmonth, hday, Nat.le_of_lt_succ hhour, Nat.le_of_lt_succ hminute,
    Nat.le_of_lt_succ hsecond, hzone⟩

/-- **Spellings are read** as what they denote. -/
theorem Spelling.ofChars?_chars_iff (spelling : Spelling) (stamp : Timestamp) :
    ofChars? spelling.chars = some stamp ↔ spelling.Possible ∧ spelling.Denotes stamp := by
  simp only [chars, ofChars?, Option.bind_eq_bind, date?_chars, time?_chars, separator?_char,
    Option.bind_some, Option.bind_assoc, Option.bind_eq_some_iff, Date.of?_eq_some_iff,
    TimeOfDay.of?_eq_some_iff, offset?_chars_iff]
  constructor
  · rintro ⟨date, ⟨hyear, hmonth, hday⟩, time, ⟨hhour, hminute, hsecond, hnanos⟩, offset,
      ⟨hzone, hoffset⟩, heq⟩
    cases heq
    have hdenotes : spelling.Denotes ⟨⟨date, time⟩, offset⟩ :=
      ⟨hyear, hmonth, hday, hhour, hminute, hsecond, (Fraction.nanos_eq_iff _ _).1 hnanos, hoffset⟩
    exact ⟨hdenotes.possible hzone, hdenotes⟩
  · rintro ⟨hpossible, hdenotes⟩
    exact ⟨stamp.wall.date, ⟨hdenotes.year, hdenotes.month, hdenotes.day⟩, stamp.wall.time,
      ⟨hdenotes.hour, hdenotes.minute, hdenotes.second,
        (Fraction.nanos_eq_iff _ _).2 hdenotes.nanos⟩,
      stamp.offset, ⟨hpossible.zone, hdenotes.offset⟩, rfl⟩

lemma Zone.Possible.exists_offset {zone : Zone} (h : zone.Possible) :
    ∃ offset : Option Offset, offset.map Offset.seconds = zone.east? := by
  cases zone with
  | unknown => exact ⟨none, rfl⟩
  | utc => exact ⟨some Offset.utc, rfl⟩
  | signed west hours minutes =>
    obtain ⟨hhours, hminutes⟩ := h
    cases west with
    | false =>
      exact ⟨some ⟨3600 * hours.value + 60 * minutes.value, by omega, by omega⟩, rfl⟩
    | true =>
      exact ⟨some ⟨-(3600 * hours.value + 60 * minutes.value), by omega, by omega⟩, rfl⟩

/-- A possible spelling denotes a timestamp. -/
lemma Spelling.Possible.exists_denotes {spelling : Spelling} (h : spelling.Possible) :
    ∃ stamp, spelling.Denotes stamp := by
  have hyear : spelling.year.value < 10 ^ 4 := spelling.year.value_lt
  have hnanos := Fraction.nanos_lt (spelling.seconds.bind Seconds.fraction)
  have hdays := h.day
  rw [← daysInMonth_eq_monthLength _ h.month] at hdays
  obtain ⟨offset, hoffset⟩ := h.zone.exists_offset
  let date : Date :=
    ⟨spelling.year.value, spelling.month.value, spelling.day.value,
      by rw [firstYear, lastYear]; omega, h.month, hdays⟩
  let time : TimeOfDay :=
    ⟨spelling.hour.value, spelling.minute.value, Seconds.number spelling.seconds,
      Fraction.nanos (spelling.seconds.bind Seconds.fraction), Nat.lt_succ_of_le h.hour,
      Nat.lt_succ_of_le h.minute, Nat.lt_succ_of_le h.second, by omega⟩
  exact ⟨⟨⟨date, time⟩, offset⟩, rfl, rfl, rfl, rfl, rfl, rfl,
    (Fraction.nanos_eq_iff _ _).1 rfl, hoffset⟩

/-! ## What is read -/

lemma eq_cons_of_mark? {c : Char} {text rest : List Char} (h : mark? c text = some rest) :
    text = c :: rest := by
  unfold mark? at h
  split at h
  · cases h
  · split at h
    · rename_i hc
      rw [hc, Option.some.inj h]
    · cases h

lemma exists_of_date? {text rest : List Char} {date : Date}
    (h : date? text = some (date, rest)) : ∃ (year : Numeral 4) (month day : Numeral 2),
      text = year.chars ++ '-' :: (month.chars ++ '-' :: (day.chars ++ rest)) := by
  simp only [date?, Option.bind_eq_bind, Option.bind_eq_some_iff] at h
  obtain ⟨⟨_, _⟩, hyear, _, hfirst, ⟨_, _⟩, hmonth, _, hsecond, ⟨_, _⟩, hday, _, -, heq⟩ := h
  cases heq
  obtain ⟨year, rfl⟩ := Numeral.exists_of_number? hyear
  obtain rfl := eq_cons_of_mark? hfirst
  obtain ⟨month, rfl⟩ := Numeral.exists_of_number? hmonth
  obtain rfl := eq_cons_of_mark? hsecond
  obtain ⟨day, rfl⟩ := Numeral.exists_of_number? hday
  exact ⟨year, month, day, rfl⟩

lemma exists_of_separator? {text rest : List Char} (h : separator? text = some rest) :
    ∃ separator : Separator, text = separator.char :: rest := by
  unfold separator? at h
  split at h
  · cases h
    exact ⟨.letter, rfl⟩
  · cases h
    exact ⟨.space, rfl⟩
  · cases h

lemma exists_of_fraction? {text rest : List Char} {nanos : Nat}
    (h : fraction? text = some (nanos, rest)) :
    ∃ fraction, text = Fraction.chars fraction ++ rest := by
  unfold fraction? at h
  split at h
  · rename_i text
    dsimp only at h
    split at h
    · rename_i hlength
      obtain ⟨-, rfl⟩ := Prod.mk.inj (Option.some.inj h)
      have hdigits : ∀ c ∈ (span text).1, c.isDigit = true := fun c hc => List.mem_takeWhile_imp hc
      obtain ⟨digits, hchars⟩ := Numeral.exists_chars_eq rfl hdigits
      have hsplit : (span text).1 ++ (span text).2 = text := List.takeWhile_append_dropWhile
      refine ⟨some ⟨_, digits, hlength.1, hlength.2⟩, ?_⟩
      rw [Fraction.chars, hchars, List.cons_append, hsplit]
    · cases h
  · cases h
    exact ⟨none, rfl⟩

lemma exists_of_seconds? {text rest : List Char} {second nanos : Nat}
    (h : seconds? text = some (second, nanos, rest)) :
    ∃ seconds, text = Seconds.chars seconds ++ rest := by
  unfold seconds? at h
  split at h
  · simp only [Option.bind_eq_bind, Option.bind_eq_some_iff] at h
    obtain ⟨⟨_, _⟩, hwhole, ⟨_, _⟩, hfraction, heq⟩ := h
    cases heq
    obtain ⟨whole, rfl⟩ := Numeral.exists_of_number? hwhole
    obtain ⟨fraction, rfl⟩ := exists_of_fraction? hfraction
    refine ⟨some ⟨whole, fraction⟩, ?_⟩
    rw [Seconds.chars, List.cons_append, List.append_assoc]
  · cases h
    exact ⟨none, rfl⟩

lemma exists_of_time? {text rest : List Char} {time : TimeOfDay}
    (h : time? text = some (time, rest)) : ∃ (hour minute : Numeral 2) (seconds : Option Seconds),
      text = hour.chars ++ ':' :: (minute.chars ++ (Seconds.chars seconds ++ rest)) := by
  simp only [time?, Option.bind_eq_bind, Option.bind_eq_some_iff] at h
  obtain ⟨⟨_, _⟩, hhour, _, hcolon, ⟨_, _⟩, hminute, ⟨_, _, _⟩, hseconds, _, -, heq⟩ := h
  cases heq
  obtain ⟨hour, rfl⟩ := Numeral.exists_of_number? hhour
  obtain rfl := eq_cons_of_mark? hcolon
  obtain ⟨minute, rfl⟩ := Numeral.exists_of_number? hminute
  obtain ⟨seconds, rfl⟩ := exists_of_seconds? hseconds
  exact ⟨hour, minute, seconds, rfl⟩

lemma exists_of_hoursAndMinutes? {text : List Char} {size : Nat}
    (h : hoursAndMinutes? text = some size) :
    ∃ hours minutes : Numeral 2, text = hours.chars ++ ':' :: minutes.chars := by
  simp only [hoursAndMinutes?, Option.bind_eq_bind, Option.bind_eq_some_iff] at h
  obtain ⟨⟨_, _⟩, hhours, _, hcolon, ⟨_, _⟩, hminutes, hsize⟩ := h
  split at hsize
  · rename_i hend
    obtain ⟨-, -, rfl⟩ := hend
    obtain ⟨hours, rfl⟩ := Numeral.exists_of_number? hhours
    obtain rfl := eq_cons_of_mark? hcolon
    obtain ⟨minutes, rfl⟩ := Numeral.exists_of_number? hminutes
    exact ⟨hours, minutes, by rw [List.append_nil]⟩
  · cases hsize

lemma exists_of_offset? {text : List Char} {offset : Option Offset}
    (h : offset? text = some offset) : ∃ zone : Zone, text = zone.chars := by
  unfold offset? at h
  split at h
  · exact ⟨.unknown, rfl⟩
  · exact ⟨.utc, rfl⟩
  · simp only [Option.bind_eq_bind, Option.bind_eq_some_iff] at h
    obtain ⟨_, hsize, -⟩ := h
    obtain ⟨hours, minutes, rfl⟩ := exists_of_hoursAndMinutes? hsize
    exact ⟨.signed false hours minutes, rfl⟩
  · simp only [Option.bind_eq_bind, Option.bind_eq_some_iff] at h
    obtain ⟨_, hsize, -⟩ := h
    obtain ⟨hours, minutes, rfl⟩ := exists_of_hoursAndMinutes? hsize
    exact ⟨.signed true hours minutes, rfl⟩
  · cases h

/-- **Only spellings are read.** -/
theorem exists_spelling_of_ofChars? {text : List Char} {stamp : Timestamp}
    (h : ofChars? text = some stamp) : ∃ spelling : Spelling, text = spelling.chars := by
  simp only [ofChars?, Option.bind_eq_bind, Option.bind_eq_some_iff] at h
  obtain ⟨⟨_, _⟩, hdate, _, hseparator, ⟨_, _⟩, htime, _, hoffset, -⟩ := h
  obtain ⟨year, month, day, rfl⟩ := exists_of_date? hdate
  obtain ⟨separator, rfl⟩ := exists_of_separator? hseparator
  obtain ⟨hour, minute, seconds, rfl⟩ := exists_of_time? htime
  obtain ⟨zone, rfl⟩ := exists_of_offset? hoffset
  exact ⟨⟨year, month, day, separator, hour, minute, seconds, zone⟩, rfl⟩

/-- **The language of timestamps.** The texts that are read are those of possible spellings, and
each of them is read as the timestamp that it denotes. -/
theorem parseTimestamp_language :
    (∀ text, (∃ stamp, parseTimestamp text = some stamp) ↔
      ∃ spelling : Spelling, spelling.text = text ∧ spelling.Possible) ∧
    ∀ (spelling : Spelling) (stamp : Timestamp), parseTimestamp spelling.text = some stamp ↔
      spelling.Possible ∧ spelling.Denotes stamp := by
  have hspelling : ∀ (spelling : Spelling) (stamp : Timestamp),
      parseTimestamp spelling.text = some stamp ↔ spelling.Possible ∧ spelling.Denotes stamp := by
    intro spelling stamp
    rw [parseTimestamp, parse?, Spelling.text, String.toList_ofList, spelling.ofChars?_chars_iff]
  refine ⟨fun text => ⟨?_, ?_⟩, hspelling⟩
  · rintro ⟨stamp, hstamp⟩
    obtain ⟨spelling, hchars⟩ := exists_spelling_of_ofChars? hstamp
    have htext : spelling.text = text := by rw [Spelling.text, ← hchars, String.ofList_toList]
    rw [← htext, hspelling] at hstamp
    exact ⟨spelling, htext, hstamp.1⟩
  · rintro ⟨spelling, rfl, hpossible⟩
    obtain ⟨stamp, hdenotes⟩ := hpossible.exists_denotes
    exact ⟨stamp, (hspelling spelling stamp).2 ⟨hpossible, hdenotes⟩⟩

/-- A full century that four hundred does not divide is no leap year. -/
example : parseTimestamp "1900-02-29T12:00" = none := by decide

end Timestamp

end Conform
