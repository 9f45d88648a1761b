import Conform.Calendar
import Conform.Decimal

/-!
# Timestamps

A timestamp is a wall-clock reading together with the offset from UTC it was written with, if any.
The reading is kept as written; only a timestamp with an offset names an instant.

Writing gives date, time and offset in their ISO 8601 form, the fraction of a second in the fewest
of no, three, six or nine digits that hold it exactly.  Reading accepts a wider language: a space in
place of the `T`, seconds left out, a fraction of any length up to nine digits, and offsets up to
a day that are whole minutes.
-/

namespace Conform

/-- Seconds east of UTC, less than a day either way. -/
structure Offset where
  seconds : Int
  west_of_a_day : -86400 < seconds
  east_of_a_day : seconds < 86400
deriving DecidableEq, Repr

namespace Offset

/-- The offset of so many seconds east, if it is less than a day. -/
def of? (seconds : Int) : Option Offset :=
  if hw : -86400 < seconds then
    if he : seconds < 86400 then some ⟨seconds, hw, he⟩ else none
  else none

/-- No offset from UTC. -/
def utc : Offset := ⟨0, by decide, by decide⟩

end Offset

/-- A wall-clock reading and the offset it was written with. -/
structure Timestamp where
  wall : DateTime
  offset : Option Offset
deriving DecidableEq, Repr

/-- A moment in time, with the offset under which it is to be shown. -/
structure Instant where
  utc : DateTime
  offset : Offset
deriving DecidableEq, Repr

namespace Timestamp

/-- The moment a timestamp names, if it has an offset and the calendar reaches its UTC reading. -/
def instant? (stamp : Timestamp) : Option Instant := do
  let offset ← stamp.offset
  let utc ← stamp.wall.shift? (-offset.seconds)
  return ⟨utc, offset⟩

/-- The timestamp that shows an instant under its own offset, if the calendar reaches it. -/
def ofInstant? (instant : Instant) : Option Timestamp := do
  let wall ← instant.utc.shift? instant.offset.seconds
  return ⟨wall, some instant.offset⟩

end Timestamp

end Conform

namespace Conform.Timestamp

open Decimal

/-! ## Writing -/

/-- Four digits for the years 0 to 9999, else a sign and at least four digits. -/
def yearText (year : Int) : List Char :=
  if 0 ≤ year ∧ year ≤ 9999 then padded 4 year.toNat
  else (if year < 0 then '-' else '+') :: padded 4 year.natAbs

/-- A fraction of a second with its point; nothing when there is none. -/
def fractionText (nanos : Nat) : List Char :=
  if nanos = 0 then []
  else if nanos % 1000000 = 0 then '.' :: padded 3 (nanos / 1000000)
  else if nanos % 1000 = 0 then '.' :: padded 6 (nanos / 1000)
  else '.' :: padded 9 nanos

/-- The date and time alone; a leap second shows as second 60. -/
def wallText (wall : DateTime) : List Char :=
  yearText wall.date.year ++ '-' :: padded 2 wall.date.month ++ '-' :: padded 2 wall.date.day ++
    'T' :: padded 2 wall.time.hour ++ ':' :: padded 2 wall.time.minute ++
    ':' :: padded 2 (wall.time.second + wall.time.nanos / nanosPerSecond) ++
    fractionText (wall.time.nanos % nanosPerSecond)

/-- `Z` for no offset from UTC, else a sign, hours and minutes, and seconds when there are any. -/
def offsetText (offset : Offset) : List Char :=
  if offset.seconds = 0 then ['Z']
  else
    let size := offset.seconds.natAbs
    (if offset.seconds < 0 then '-' else '+') :: padded 2 (size / 3600) ++
      ':' :: padded 2 (size / 60 % 60) ++
      if size % 60 = 0 then [] else ':' :: padded 2 (size % 60)

/-- The characters of a timestamp. -/
def chars (stamp : Timestamp) : List Char :=
  wallText stamp.wall ++ (stamp.offset.map offsetText).getD []

/-- The text of a timestamp. -/
def text (stamp : Timestamp) : String := String.ofList stamp.chars

/-! ## Reading -/

/-- Takes one given character off the front. -/
def mark? (c : Char) : List Char → Option (List Char)
  | [] => none
  | d :: rest => if d = c then some rest else none

/-- Four digits, two, and two, with hyphens between them. -/
def date? (text : List Char) : Option (Date × List Char) := do
  let (year, text) ← number? 4 text
  let text ← mark? '-' text
  let (month, text) ← number? 2 text
  let text ← mark? '-' text
  let (day, text) ← number? 2 text
  let date ← Date.of? year month day
  return (date, text)

/-- The letter `T` or one space. -/
def separator? : List Char → Option (List Char)
  | 'T' :: rest => some rest
  | ' ' :: rest => some rest
  | _ => none

/-- Up to nine digits after a point, as nanoseconds; no point means none. -/
def fraction? : List Char → Option (Nat × List Char)
  | '.' :: text =>
    let (digits, rest) := span text
    if 1 ≤ digits.length ∧ digits.length ≤ 9 then
      some (value digits * Nat.pow 10 (9 - digits.length), rest)
    else none
  | text => some (0, text)

/-- The seconds and their fraction after a colon; no colon means none. -/
def seconds? : List Char → Option (Nat × Nat × List Char)
  | ':' :: text => do
    let (second, text) ← number? 2 text
    let (nanos, text) ← fraction? text
    return (second, nanos, text)
  | text => some (0, 0, text)

/-- Hours and minutes, then seconds if they are given. -/
def time? (text : List Char) : Option (TimeOfDay × List Char) := do
  let (hour, text) ← number? 2 text
  let text ← mark? ':' text
  let (minute, text) ← number? 2 text
  let (second, nanos, text) ← seconds? text
  let time ← TimeOfDay.of? hour minute second nanos
  return (time, text)

/-- Two digits of hours up to 23 and two of minutes up to 59, and nothing after them, in seconds. -/
def hoursAndMinutes? (text : List Char) : Option Nat := do
  let (hours, text) ← number? 2 text
  let text ← mark? ':' text
  let (minutes, text) ← number? 2 text
  if hours ≤ 23 ∧ minutes ≤ 59 ∧ text = [] then some (hours * 3600 + minutes * 60) else none

/-- What may stand at the end: nothing, `Z`, or a sign with hours and minutes. -/
def offset? : List Char → Option (Option Offset)
  | [] => some none
  | ['Z'] => some (some Offset.utc)
  | '+' :: text => do
    let size ← hoursAndMinutes? text
    let offset ← Offset.of? size
    return some offset
  | '-' :: text => do
    let size ← hoursAndMinutes? text
    let offset ← Offset.of? (-size)
    return some offset
  | _ => none

/-- Reads a timestamp that fills the whole of its characters. -/
def ofChars? (text : List Char) : Option Timestamp := do
  let (date, text) ← date? text
  let text ← separator? text
  let (time, text) ← time? text
  let offset ← offset? text
  return ⟨⟨date, time⟩, offset⟩

/-- Reads a timestamp that fills the whole text. -/
def parse? (text : String) : Option Timestamp := ofChars? text.toList

end Conform.Timestamp
