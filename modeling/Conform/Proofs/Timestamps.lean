import Conform.Proofs.Spellings

/-!
# Timestamps written and read

The text of a timestamp gives the timestamp back (`Timestamp.ofChars?_chars`) when the year has four
digits, no second is a leap second and the offset is one of whole minutes: `Timestamp.Readable`.
What is read from any text is such a timestamp (`Timestamp.readable_of_ofChars?`), although the text
may be another one than the timestamp is written with.

Both follow from the spellings.  A readable timestamp is written as one of its own spellings, and no
spelling denotes any other kind of timestamp.
-/

namespace Conform

lemma daysInMonth_le (year : Int) (month : Nat) : daysInMonth year month ≤ 31 := by
  unfold daysInMonth
  split
  case h_2 => split <;> omega
  all_goals omega

namespace Timestamp

open Decimal

/-- The year has four digits, the second is no leap second, and the offset is one of whole
minutes. -/
structure Readable (stamp : Timestamp) : Prop where
  year : 0 ≤ stamp.wall.date.year ∧ stamp.wall.date.year ≤ 9999
  nanos : stamp.wall.time.nanos < nanosPerSecond
  offset : ∀ offset, stamp.offset = some offset → offset.seconds % 60 = 0

/-! ## Writing, then reading -/

lemma Fraction.exists_of_padded (count : Nat) {n : Nat} (hcount : 1 ≤ count ∧ count ≤ 9)
    (h : n < 10 ^ count) : ∃ fraction, chars fraction = '.' :: padded count n ∧
      nanos fraction = n * 10 ^ (9 - count) := by
  obtain ⟨digits, hchars, hvalue⟩ := Numeral.exists_of_padded hcount.1 h
  exact ⟨some ⟨count, digits, hcount.1, hcount.2⟩, by rw [chars, hchars], by rw [nanos, hvalue]⟩

/-- Zeros are left out in threes, and reading puts them back. -/
lemma Fraction.exists_of_fractionText {n : Nat} (h : n < nanosPerSecond) :
    ∃ fraction, chars fraction = fractionText n ∧ nanos fraction = n := by
  rw [nanosPerSecond] at h
  rw [fractionText]
  split
  · rename_i hzero
    exact ⟨none, rfl, hzero.symm⟩
  · split
    · obtain ⟨fraction, hchars, hnanos⟩ :=
        exists_of_padded 3 (by decide) (by omega : n / 1000000 < 10 ^ 3)
      exact ⟨fraction, hchars, by omega⟩
    · split
      · obtain ⟨fraction, hchars, hnanos⟩ :=
          exists_of_padded 6 (by decide) (by omega : n / 1000 < 10 ^ 6)
        exact ⟨fraction, hchars, by omega⟩
      · obtain ⟨fraction, hchars, hnanos⟩ := exists_of_padded 9 (by decide) (by omega : n < 10 ^ 9)
        exact ⟨fraction, hchars, by omega⟩

lemma Zone.exists_of_offsetText {offset : Offset} (h : offset.seconds % 60 = 0) :
    ∃ zone : Zone, zone.chars = offsetText offset ∧ zone.Possible ∧
      some offset.seconds = zone.east? := by
  have hwest := offset.west_of_a_day
  have heast := offset.east_of_a_day
  rw [offsetText]
  split
  · rename_i hzero
    exact ⟨.utc, rfl, trivial, by rw [hzero, Zone.east?]⟩
  · have hwhole : offset.seconds.natAbs % 60 = 0 := by omega
    obtain ⟨hours, hhours, hhoursValue⟩ :=
      Numeral.exists_of_padded two_pos (by omega : offset.seconds.natAbs / 3600 < 10 ^ 2)
    obtain ⟨minutes, hminutes, hminutesValue⟩ :=
      Numeral.exists_of_padded two_pos (by omega : offset.seconds.natAbs / 60 % 60 < 10 ^ 2)
    refine ⟨.signed (decide (offset.seconds < 0)) hours minutes, ?_, ?_, ?_⟩
    · simp only [Zone.chars, hhours, hminutes, decide_eq_true_eq, if_pos hwhole, List.append_nil,
        List.cons_append]
    · rw [Zone.Possible]
      omega
    · simp only [Zone.east?, decide_eq_true_eq, Option.some.injEq]
      split <;> omega

/-- What is written is a spelling of what is written. -/
lemma Readable.exists_spelling {stamp : Timestamp} (h : stamp.Readable) :
    ∃ spelling : Spelling, spelling.chars = stamp.chars ∧ spelling.zone.Possible ∧
      spelling.Denotes stamp := by
  obtain ⟨⟨date, time⟩, offset⟩ := stamp
  obtain ⟨hyears, hnanos, hoffsets⟩ := h
  dsimp only at hyears hnanos hoffsets
  have hmonths := date.month_exists
  have hdays : date.day ≤ 31 := date.day_exists.2.trans (daysInMonth_le date.year date.month)
  have hhours := time.hour_exists
  have hminutes := time.minute_exists
  have hseconds := time.second_exists
  obtain ⟨year, hyear, hyearNumber⟩ :=
    Numeral.exists_of_padded four_pos (by omega : date.year.toNat < 10 ^ 4)
  obtain ⟨month, hmonth, hmonthValue⟩ :=
    Numeral.exists_of_padded two_pos (by omega : date.month < 10 ^ 2)
  obtain ⟨day, hday, hdayValue⟩ :=
    Numeral.exists_of_padded two_pos (by omega : date.day < 10 ^ 2)
  obtain ⟨hour, hhour, hhourValue⟩ :=
    Numeral.exists_of_padded two_pos (by omega : time.hour < 10 ^ 2)
  obtain ⟨minute, hminute, hminuteValue⟩ :=
    Numeral.exists_of_padded two_pos (by omega : time.minute < 10 ^ 2)
  obtain ⟨second, hsecond, hsecondValue⟩ :=
    Numeral.exists_of_padded two_pos (by omega : time.second < 10 ^ 2)
  obtain ⟨fraction, hfraction, hfractionNanos⟩ := Fraction.exists_of_fractionText hnanos
  obtain ⟨zone, hzone, hpossible, heast⟩ : ∃ zone : Zone,
      zone.chars = (offset.map offsetText).getD [] ∧ zone.Possible ∧
        offset.map Offset.seconds = zone.east? := by
    cases offset with
    | none => exact ⟨.unknown, rfl, trivial, rfl⟩
    | some offset => exact Zone.exists_of_offsetText (hoffsets offset rfl)
  have hyearValue : date.year = year.value := by omega
  refine ⟨⟨year, month, day, .letter, hour, minute, some ⟨second, fraction⟩, zone⟩, ?_, hpossible,
    ?_⟩
  · simp only [Spelling.chars, Separator.char, Seconds.chars, hyear, hmonth, hday, hhour, hminute,
      hsecond, hfraction, hzone, chars, wallText, yearText, if_pos hyears, Nat.div_eq_of_lt hnanos,
      Nat.mod_eq_of_lt hnanos, Nat.add_zero, List.append_assoc, List.cons_append]
  · exact ⟨hyearValue, hmonthValue.symm, hdayValue.symm, hhourValue.symm, hminuteValue.symm,
      hsecondValue.symm, (Fraction.nanos_eq_iff _ _).1 hfractionNanos.symm, heast⟩

/-- **Writing, then reading.** -/
theorem ofChars?_chars {stamp : Timestamp} (h : stamp.Readable) :
    ofChars? stamp.chars = some stamp := by
  obtain ⟨spelling, hchars, hzone, hdenotes⟩ := h.exists_spelling
  rw [← hchars, Spelling.ofChars?_chars_iff]
  exact ⟨hdenotes.possible hzone, hdenotes⟩

lemma parse?_text {stamp : Timestamp} (h : stamp.Readable) : parse? stamp.text = some stamp := by
  rw [parse?, text, String.toList_ofList, ofChars?_chars h]

/-! ## What is read -/

theorem Zone.minutes_of_east? {zone : Zone} {seconds : Int} (h : zone.east? = some seconds) :
    seconds % 60 = 0 := by
  cases zone with
  | unknown => cases h
  | utc =>
    cases h
    rfl
  | signed west hours minutes =>
    cases west <;> cases h <;> omega

/-- What can be spelled can be written and read again. -/
lemma Spelling.Denotes.readable {spelling : Spelling} {stamp : Timestamp}
    (h : spelling.Denotes stamp) : stamp.Readable := by
  have hyear : spelling.year.value < 10 ^ 4 := spelling.year.value_lt
  constructor
  · rw [h.year]
    omega
  · rw [(Fraction.nanos_eq_iff _ _).2 h.nanos]
    exact Fraction.nanos_lt _
  · intro offset hoffset
    have heast := h.offset
    rw [hoffset, Option.map_some] at heast
    exact Zone.minutes_of_east? heast.symm

/-- **Whatever is read can be written and read again.** -/
theorem readable_of_ofChars? {text : List Char} {stamp : Timestamp}
    (h : ofChars? text = some stamp) : stamp.Readable := by
  obtain ⟨spelling, rfl⟩ := exists_spelling_of_ofChars? h
  exact ((spelling.ofChars?_chars_iff stamp).1 h).2.readable

/-- **The round trip.** The readable timestamps are those that come back from their own text.
Nothing else is ever read, so that a text and the text of what it is read as are read alike. -/
theorem parseTimestamp_text :
    (∀ stamp : Timestamp, parseTimestamp stamp.text = some stamp ↔ stamp.Readable) ∧
    ∀ (text : String) (stamp : Timestamp), parseTimestamp text = some stamp →
      stamp.Readable ∧ parseTimestamp stamp.text = parseTimestamp text := by
  refine ⟨fun stamp => ⟨readable_of_ofChars?, parse?_text⟩, ?_⟩
  intro text stamp h
  have hreadable : stamp.Readable := readable_of_ofChars? h
  refine ⟨hreadable, ?_⟩
  rw [h]
  exact parse?_text hreadable

/-- A leap day of the year zero, less than an hour west of UTC: a space and a fraction of two digits
are read, and a letter and three digits are written. -/
theorem parseTimestamp_text_leap_day :
    ∃ stamp, parseTimestamp "0000-02-29 23:59:59.25-00:30" = some stamp ∧ stamp.Readable ∧
      stamp.text = "0000-02-29T23:59:59.250-00:30" ∧
      parseTimestamp stamp.text = parseTimestamp "0000-02-29 23:59:59.25-00:30" := by
  have htexts : (parseTimestamp "0000-02-29 23:59:59.25-00:30").map text =
      some "0000-02-29T23:59:59.250-00:30" := by decide
  obtain ⟨stamp, hread, htext⟩ := Option.map_eq_some_iff.1 htexts
  obtain ⟨hreadable, hagain⟩ := parseTimestamp_text.2 _ _ hread
  exact ⟨stamp, hread, hreadable, htext, hagain⟩

/-! ## Other readers -/

lemma mem_chars (stamp : Timestamp) : 'T' ∈ stamp.chars := by
  simp [chars, wallText]

lemma integer?_chars (stamp : Timestamp) : integer? stamp.chars = none := by
  cases h : integer? stamp.chars with
  | none => rfl
  | some number => exact absurd (mem_of_integer? h stamp.mem_chars) (by decide)

lemma literal_chars (stamp : Timestamp) : Literal.ofChars? stamp.chars = none := by
  cases h : Literal.ofChars? stamp.chars with
  | none => rfl
  | some literal => exact absurd (mem_of_ofChars? h stamp.mem_chars) (by decide)

lemma text_ne {stamp : Timestamp} {text : String} (h : 'T' ∉ text.toList) :
    stamp.text ≠ text := by
  rintro rfl
  rw [text, String.toList_ofList] at h
  exact h stamp.mem_chars

end Timestamp

end Conform
