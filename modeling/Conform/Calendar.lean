/-!
# The proleptic Gregorian calendar

Dates and times of day as a clock on the wall shows them.  A `Date` always exists in the calendar
and lies within the years the calendar covers; a `TimeOfDay` is always a time of some day.  A leap
second is the second before it with a nanosecond count of one billion or more.
-/

namespace Conform

/-- Every fourth year is a leap year, but of the full centuries only every fourth. -/
def isLeapYear (year : Int) : Bool :=
  year % 4 == 0 && (year % 100 != 0 || year % 400 == 0)

/-- The length of a month; a month that does not exist has no days. -/
def daysInMonth (year : Int) : Nat → Nat
  | 1 => 31
  | 2 => if isLeapYear year then 29 else 28
  | 3 => 31
  | 4 => 30
  | 5 => 31
  | 6 => 30
  | 7 => 31
  | 8 => 31
  | 9 => 30
  | 10 => 31
  | 11 => 30
  | 12 => 31
  | _ => 0

/-- The first year the calendar covers. -/
def firstYear : Int := -262143

/-- The last year the calendar covers. -/
def lastYear : Int := 262142

/-! ## Dates -/

/-- A day of the calendar. -/
structure Date where
  year : Int
  month : Nat
  day : Nat
  year_covered : firstYear ≤ year ∧ year ≤ lastYear
  month_exists : 1 ≤ month ∧ month ≤ 12
  day_exists : 1 ≤ day ∧ day ≤ daysInMonth year month
deriving DecidableEq, Repr

namespace Date

/-- The day with these numbers, if there is one. -/
def of? (year : Int) (month day : Nat) : Option Date :=
  if hy : firstYear ≤ year ∧ year ≤ lastYear then
    if hm : 1 ≤ month ∧ month ≤ 12 then
      if hd : 1 ≤ day ∧ day ≤ daysInMonth year month then
        some ⟨year, month, day, hy, hm, hd⟩
      else none
    else none
  else none

/-- The next day, unless the calendar ends. -/
def next? (date : Date) : Option Date :=
  if date.day < daysInMonth date.year date.month then
    of? date.year date.month (date.day + 1)
  else if date.month < 12 then
    of? date.year (date.month + 1) 1
  else
    of? (date.year + 1) 1 1

/-- The day before, unless the calendar starts. -/
def previous? (date : Date) : Option Date :=
  if 1 < date.day then
    of? date.year date.month (date.day - 1)
  else if 1 < date.month then
    of? date.year (date.month - 1) (daysInMonth date.year (date.month - 1))
  else
    of? (date.year - 1) 12 31

/-- The days of the year in the months before `month`. -/
def daysBeforeMonth (year : Int) (month : Nat) : Nat :=
  (List.range month).foldr (fun month days => daysInMonth year month + days) 0

/-- Days since the first of January 1970. -/
def dayNumber (date : Date) : Int :=
  let years := date.year - 1
  let before := 365 * years + years / 4 - years / 100 + years / 400
  before + daysBeforeMonth date.year date.month + date.day - 719163

end Date

/-! ## Times of day -/

/-- Nanoseconds in a second. -/
def nanosPerSecond : Nat := 1000000000

/-- Seconds in a day without a leap second. -/
def secondsPerDay : Nat := 86400

/-- A time of day; a nanosecond count beyond a second marks a leap second. -/
structure TimeOfDay where
  hour : Nat
  minute : Nat
  second : Nat
  nanos : Nat
  hour_exists : hour < 24
  minute_exists : minute < 60
  second_exists : second < 60
  nanos_exist : nanos < 2 * nanosPerSecond
deriving DecidableEq, Repr

namespace TimeOfDay

/-- The time with these numbers, if there is one. -/
def of? (hour minute second nanos : Nat) : Option TimeOfDay :=
  if hh : hour < 24 then
    if hm : minute < 60 then
      if hs : second < 60 then
        if hn : nanos < 2 * nanosPerSecond then
          some ⟨hour, minute, second, nanos, hh, hm, hs, hn⟩
        else none
      else none
    else none
  else none

/-- Whole seconds since midnight. -/
def secondOfDay (time : TimeOfDay) : Nat := time.hour * 3600 + time.minute * 60 + time.second

/-- The time a number of whole seconds after midnight, counted around the clock. -/
def ofSecondOfDay (seconds : Nat) (nanos : Nat) (h : nanos < 2 * nanosPerSecond) : TimeOfDay where
  hour := seconds / 3600 % 24
  minute := seconds / 60 % 60
  second := seconds % 60
  nanos := nanos
  hour_exists := Nat.mod_lt _ (by decide)
  minute_exists := Nat.mod_lt _ (by decide)
  second_exists := Nat.mod_lt _ (by decide)
  nanos_exist := h

end TimeOfDay

/-- A date together with a time of day. -/
structure DateTime where
  date : Date
  time : TimeOfDay
deriving DecidableEq, Repr

namespace DateTime

/-- Whole seconds since the start of 1970. -/
def secondNumber (moment : DateTime) : Int :=
  moment.date.dayNumber * secondsPerDay + moment.time.secondOfDay

/--
The moment some seconds later, or earlier when negative, by less than a day either way.  There is
none when the calendar does not reach it.  The fraction of a second, a leap second included, moves
along unchanged.
-/
def shift? (moment : DateTime) (seconds : Int) : Option DateTime :=
  let total := moment.time.secondOfDay + seconds
  let time := TimeOfDay.ofSecondOfDay (total % secondsPerDay).toNat moment.time.nanos
    moment.time.nanos_exist
  let date :=
    if total < 0 then moment.date.previous?
    else if total < secondsPerDay then some moment.date
    else moment.date.next?
  date.map fun date => ⟨date, time⟩

end DateTime

end Conform
