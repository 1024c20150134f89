import PackScope.Text.Digits

/-!
Dates and times of day. A date-time holds a date, a time, or both, and an offset from universal
time only if it holds both.
-/

namespace PackScope.Toml

/-- A day of a year. -/
structure Date where
  year : Nat
  month : Nat
  day : Nat
  deriving DecidableEq, Repr, Inhabited

/-- A time of day, to the nanosecond. -/
structure Time where
  hour : Nat
  minute : Nat
  second : Nat
  nanosecond : Nat
  deriving DecidableEq, Repr, Inhabited

/-- The distance from universal time. -/
inductive ZoneOffset where
  | utc
  | minutes (n : Int)
  deriving DecidableEq, Repr, Inhabited

/-- **A date, a time, or both.** -/
structure Datetime where
  date : Option Date := none
  time : Option Time := none
  offset : Option ZoneOffset := none
  deriving DecidableEq, Repr, Inhabited

/-! ### The calendar -/

/-- Whether a year has a leap day. -/
def isLeapYear (year : Nat) : Bool := year % 4 = 0 && (year % 100 ≠ 0 || year % 400 = 0)

/-- The number of days of a month. -/
def daysIn (year month : Nat) : Nat :=
  if month = 2 then if isLeapYear year then 29 else 28
  else if month = 4 || month = 6 || month = 9 || month = 11 then 30
  else 31

/-- Whether the date is one of the calendar. -/
def Date.isValid (d : Date) : Bool :=
  1 ≤ d.month && d.month ≤ 12 && 1 ≤ d.day && d.day ≤ daysIn d.year d.month

/-! ### Text -/

/-- A number in decimal digits, with zeros in front up to a width. -/
def padded (width n : Nat) : List Char := Text.zeroPadded width (Nat.toDigits 10 n)

/-- A date as year, month and day. -/
def Date.text (d : Date) : List Char :=
  padded 4 d.year ++ '-' :: (padded 2 d.month ++ '-' :: padded 2 d.day)

/-- A time to the second, and the fraction of the second without zeros at its end. -/
def Time.text (t : Time) : List Char :=
  let fraction := ((padded 9 t.nanosecond).reverse.dropWhile (· = '0')).reverse
  padded 2 t.hour ++ ':' :: (padded 2 t.minute ++ ':' :: padded 2 t.second) ++
    (if fraction.isEmpty then [] else '.' :: fraction)

/-- An offset in hours and minutes; universal time itself is `Z`. -/
def ZoneOffset.text : ZoneOffset → List Char
  | utc => ['Z']
  | minutes n =>
    (if n < 0 then '-' else '+') ::
      (padded 2 (n.natAbs / 60) ++ ':' :: padded 2 (n.natAbs % 60))

/-- The normal form of a date-time: `T` between the date and the time. -/
def Datetime.chars (d : Datetime) : List Char :=
  (d.date.map Date.text).getD [] ++
  (if d.date.isSome && d.time.isSome then ['T'] else []) ++
  (d.time.map Time.text).getD [] ++
  (d.offset.map ZoneOffset.text).getD []

/-- The normal form of a date-time. -/
def Datetime.text (d : Datetime) : String := .ofList d.chars

end PackScope.Toml
