/-
Tessivum.Schedule.Calendar — instants and their RFC 3339 text
(`src/schedule.rs`).

`format_instant` writes a count of milliseconds as a four-digit-year UTC
date-time, `parse_instant` reads one back and accepts exactly what the first
would write.

A text is read as a list of characters: at every position the source asks for
an ASCII byte, so a text with other characters fails either way.
-/
import Tessivum.Library.Decimal

namespace Tessivum.Schedule

open Library

/-! ## The calendar -/

def minInstantMs : Int := -62135596800000

def maxInstantMs : Int := 253402300799999

def Instant : Type := { millis : Int // minInstantMs ≤ millis ∧ millis ≤ maxInstantMs }

/-- `checked_add` and `checked_mul` on `i64`: a result that fits. -/
def checkedI64 (n : Int) : Option Int :=
  if -2 ^ 63 ≤ n ∧ n < 2 ^ 63 then some n else none

structure Calendar where
  year : Int
  month : Int
  day : Int
  hour : Int
  minute : Int
  second : Int
  millis : Int
  deriving DecidableEq, Repr

def daysFromCivil (year month day : Int) : Int :=
  let year := year - if month ≤ 2 then 1 else 0
  let era := (if 0 ≤ year then year else year - 399).tdiv 400
  let yearOfEra := year - era * 400
  let dayOfYear := (153 * (month + if month > 2 then -3 else 9) + 2) / 5 + day - 1
  era * 146097 + yearOfEra * 365 + yearOfEra / 4 - yearOfEra / 100 + dayOfYear - 719468

def civilFromDays (days : Int) : Int × Int × Int :=
  let days := days + 719468
  let era := (if 0 ≤ days then days else days - 146096).tdiv 146097
  let dayOfEra := days - era * 146097
  let yearOfEra := (dayOfEra - dayOfEra / 1460 + dayOfEra / 36524 - dayOfEra / 146096) / 365
  let year := yearOfEra + era * 400
  let dayOfYear := dayOfEra - (365 * yearOfEra + yearOfEra / 4 - yearOfEra / 100)
  let monthPrime := (5 * dayOfYear + 2) / 153
  let day := dayOfYear - (153 * monthPrime + 2) / 5 + 1
  let month := monthPrime + if monthPrime < 10 then 3 else -9
  (year + (if month ≤ 2 then 1 else 0), month, day)

def calendarMillis (fields : Calendar) : Option Int := do
  if ¬ (1 ≤ fields.year ∧ fields.year ≤ 9999) ∨ ¬ (1 ≤ fields.month ∧ fields.month ≤ 12)
      ∨ ¬ (0 ≤ fields.hour ∧ fields.hour ≤ 23) ∨ ¬ (0 ≤ fields.minute ∧ fields.minute ≤ 59)
      ∨ ¬ (0 ≤ fields.second ∧ fields.second ≤ 59) ∨ ¬ (0 ≤ fields.millis ∧ fields.millis ≤ 999) then
    none
  else
    let days := daysFromCivil fields.year fields.month fields.day
    let whole ← checkedI64 (days * 86400000)
    let millis ← checkedI64 (whole + (fields.hour * 3600000 + fields.minute * 60000
      + fields.second * 1000 + fields.millis))
    if civilFromDays days = (fields.year, fields.month, fields.day)
        ∧ minInstantMs ≤ millis ∧ millis ≤ maxInstantMs then
      some millis
    else none

/-! ## Text -/

def instantText (year month day hour minute second millis : Nat) : List Char :=
  padded 4 year ++ '-' :: (padded 2 month ++ '-' :: (padded 2 day ++ 'T' :: (padded 2 hour
    ++ ':' :: (padded 2 minute ++ ':' :: (padded 2 second ++ '.' :: (padded 3 millis ++ ['Z']))))))

def formatInstant (millis : Int) : Option String :=
  if ¬ (minInstantMs ≤ millis ∧ millis ≤ maxInstantMs) then none
  else
    let day := millis % 86400000
    let civil := civilFromDays (millis / 86400000)
    some (String.ofList (instantText civil.1.toNat civil.2.1.toNat civil.2.2.toNat
      (day / 3600000).toNat (day / 60000 % 60).toNat (day / 1000 % 60).toNat (day % 1000).toNat))

/-- `digits` of the characters from one position to another. -/
def digitsAt (cs : List Char) (start stop : Nat) : Option Int :=
  (readDigits ((cs.take stop).drop start)).map Int.ofNat

def parseInstant (value : String) : Option Int := do
  let cs := value.toList
  if cs.length ≠ 24 ∨ cs[4]? ≠ some '-' ∨ cs[7]? ≠ some '-' ∨ cs[10]? ≠ some 'T'
      ∨ cs[13]? ≠ some ':' ∨ cs[16]? ≠ some ':' ∨ cs[19]? ≠ some '.' ∨ cs[23]? ≠ some 'Z' then
    none
  else
    let year ← digitsAt cs 0 4
    let month ← digitsAt cs 5 7
    let day ← digitsAt cs 8 10
    let hour ← digitsAt cs 11 13
    let minute ← digitsAt cs 14 16
    let second ← digitsAt cs 17 19
    let millis ← digitsAt cs 20 23
    let millis ← calendarMillis { year, month, day, hour, minute, second, millis }
    if formatInstant millis = some value then some millis else none

end Tessivum.Schedule
