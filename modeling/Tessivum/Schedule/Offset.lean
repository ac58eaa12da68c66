/-
Tessivum.Schedule.Offset — date-times with a zone, as `at` rules give
them (`parse_offset_instant` of `src/schedule.rs`).

The regular expression asks for decimal digits of any script. Which characters
these are is a parameter (`Digits`); among the ASCII characters they are `0` to
`9`.

A captured field that is not written in ASCII digits does not parse and is
replaced by a value no calendar has. The fraction is the exception: it is
unwrapped, and the zone is cut at byte offsets, so both can panic (`none`).
-/
import Tessivum.Schedule.InstantTheorems

namespace Tessivum.Schedule

open Library Library.ByteText Protocol

/-- The characters of class `\d`. -/
structure Digits where
  has : Char → Bool
  ascii : ∀ c : Char, c.toNat < 128 → has c = c.isDigit

/-- The groups of a match. -/
structure Captures where
  year : List Char
  month : List Char
  day : List Char
  hour : List Char
  minute : List Char
  second : List Char
  fraction : Option (List Char)
  zone : List Char

/-- `\d{n}`, and what follows it. -/
def takeDigits (digits : Digits) (n : Nat) (text : List Char) : Option (List Char × List Char) :=
  if (text.take n).length = n ∧ (text.take n).all digits.has = true then
    some (text.take n, text.drop n)
  else none

def takeMark (mark : Char) : List Char → Option (List Char)
  | [] => none
  | c :: rest => if c = mark then some rest else none

/-- `(?:\.(\d{1,3}))?`, and what follows it. -/
def takeFraction (digits : Digits) (text : List Char) : Option (List Char) × List Char :=
  match text with
  | '.' :: rest =>
    let fraction := (rest.take 3).takeWhile digits.has
    if fraction = [] then (none, text) else (some fraction, rest.drop fraction.length)
  | _ => (none, text)

/-- `(Z|[+-]\d{2}:\d{2})$`. -/
def isZone (digits : Digits) : List Char → Bool
  | ['Z'] => true
  | [sign, h₁, h₂, mark, m₁, m₂] =>
    (sign == '+' || sign == '-') && digits.has h₁ && digits.has h₂ && mark == ':'
      && digits.has m₁ && digits.has m₂
  | _ => false

/-- `expression.captures`. -/
def captures (digits : Digits) (text : List Char) : Option Captures := do
  let (year, text) ← takeDigits digits 4 text
  let text ← takeMark '-' text
  let (month, text) ← takeDigits digits 2 text
  let text ← takeMark '-' text
  let (day, text) ← takeDigits digits 2 text
  let text ← takeMark 'T' text
  let (hour, text) ← takeDigits digits 2 text
  let text ← takeMark ':' text
  let (minute, text) ← takeDigits digits 2 text
  let text ← takeMark ':' text
  let (second, text) ← takeDigits digits 2 text
  let (fraction, zone) := takeFraction digits text
  if isZone digits zone then
    some { year, month, day, hour, minute, second, fraction, zone }
  else none

/-- `parse::<i64>` of a field, which has no sign, or what stands for it. -/
def fieldOr (default : Nat) (field : List Char) : Int :=
  ((readDigits field).getD default : Nat)

def fractionMillis : Option (List Char) → Option Nat
  | none => some 0
  | some fraction => readDigits (fraction ++ List.replicate (3 - fraction.length) '0')

def parseOffsetInstant (digits : Digits) (value : String) : Option (Except Value Int) := do
  match captures digits value.toList with
  | none => some (.error (toolError "invalid_rule"
      ("at must use YYYY-MM-DDTHH:mm:ss with optional 1-3 digit fractional seconds "
        ++ "and an explicit Z or numeric offset.")))
  | some groups =>
    let fraction ← fractionMillis groups.fraction
    match calendarMillis {
        year := fieldOr 0 groups.year, month := fieldOr 0 groups.month
        day := fieldOr 0 groups.day, hour := fieldOr 24 groups.hour
        minute := fieldOr 60 groups.minute, second := fieldOr 60 groups.second
        millis := fraction } with
    | none => some (.error (toolError "invalid_rule"
        "The at value must be a real ISO calendar date and time."))
    | some local_ =>
      if groups.zone = ['Z'] then some (.ok local_)
      else
        let offsetHour := fieldOr 24 (← slice 1 3 groups.zone)
        let offsetMinute := fieldOr 60 (← slice 4 6 groups.zone)
        if offsetHour > 23 ∨ offsetMinute > 59
            ∨ groups.zone = ['-', '0', '0', ':', '0', '0'] then
          some (.error (toolError "invalid_rule" "The at numeric offset is invalid."))
        else
          let offset := (offsetHour * 60 + offsetMinute) * 60000
          let offset := if groups.zone.head? = some '+' then offset else -offset
          some (okOr (checkedI64 (local_ - offset)) timeOutOfRange)

end Tessivum.Schedule
