import PackScope.Text.Reader
import PackScope.Toml.Basic

/-!
TOML dates and times. A day must be one of the calendar, a minute may have a sixty-first second, and
of the digits of a fraction the first nine count.
-/

namespace PackScope.Toml

/-- The number that decimal digits stand for. -/
def decimalValue (digits : List Char) : Nat := Nat.ofDigitChars 10 digits 0

/-- A number of exactly so many digits. -/
def fixedDigits : Nat → Reader (List Char)
  | 0 => pure []
  | n + 1 => do return (← .satisfying Char.isDigit) :: (← fixedDigits n)

/-- A number of exactly so many digits up to a bound. -/
def fixedNumber (width bound : Nat) : Reader Nat := do
  let n := decimalValue (← fixedDigits width)
  if n ≤ bound then return n else .fail

/-- A date of the calendar. -/
def date : Reader Date := do
  let year ← fixedNumber 4 9999
  .exactly '-'
  let month ← fixedNumber 2 12
  .exactly '-'
  let day ← fixedNumber 2 31
  let d : Date := ⟨year, month, day⟩
  if d.isValid then return d else .fail

/-- The nanoseconds of a fraction of a second. -/
def nanoseconds (digits : List Char) : Nat :=
  decimalValue (digits.take 9) * Nat.pow 10 (9 - digits.length)

/-- A fraction of a second, in nanoseconds. -/
def secondFraction : Reader Nat := do
  .exactly '.'
  let first ← .satisfying Char.isDigit
  return nanoseconds (first :: (← .run Char.isDigit))

/-- A time of day. -/
def time : Reader Time := do
  let hour ← fixedNumber 2 23
  .exactly ':'
  let minute ← fixedNumber 2 59
  .exactly ':'
  let second ← fixedNumber 2 60
  return ⟨hour, minute, second, (← Reader.optional secondFraction).getD 0⟩

/-- The distance from universal time, less than a day. -/
def zoneOffset : Reader ZoneOffset := do
  let mark ← .satisfying fun c => c = 'Z' || c = 'z' || c = '+' || c = '-'
  if mark = 'Z' ∨ mark = 'z' then return .utc
  let hours ← fixedNumber 2 23
  .exactly ':'
  let minutes ← fixedNumber 2 59
  let total : Int := hours * 60 + minutes
  return .minutes (if mark = '-' then -total else total)

/-- A time of day behind a date, with its offset if it has one. -/
def timeOfDate : Reader (Time × Option ZoneOffset) := do
  let _ ← .satisfying fun c => c = 'T' || c = 't' || c = ' '
  let t ← time
  return (t, ← Reader.optional zoneOffset)

/-- **A date, a time of day, or both.** A time that is not well formed is no part of the date. -/
def datetime : Reader Datetime := do
  match ← Reader.optional date with
  | some d =>
    match ← Reader.optional timeOfDate with
    | some (t, offset) => return ⟨some d, some t, offset⟩
    | none => return ⟨some d, none, none⟩
  | none => return ⟨none, some (← time), none⟩

end PackScope.Toml
