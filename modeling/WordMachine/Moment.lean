/-
  Dates and times of day.

  `Moment.text` is the plain text of a moment and `Moment.quoted` the text that shows its parts.
-/
import WordMachine.Decimal

namespace WordMachine

/-- A day of the calendar. -/
structure Date where
  /-- The year, from 1 to 9999. -/
  year : Nat
  /-- The month, from 1. -/
  month : Nat
  /-- The day of the month, from 1. -/
  day : Nat
  deriving DecidableEq, Repr

/-- A time of day. -/
structure Clock where
  /-- The hour. -/
  hour : Nat
  /-- The minute. -/
  minute : Nat
  /-- The second. -/
  second : Nat
  /-- The microsecond. -/
  micro : Nat
  deriving DecidableEq, Repr

/-- A date, a time of day, or both with an optional distance from universal time in minutes. -/
inductive Moment where
  | date (date : Date)
  | clock (clock : Clock)
  | dateTime (date : Date) (clock : Clock) (offset : Option Int)
  deriving DecidableEq, Repr

/-- The number of days in a month of the proleptic calendar. -/
def Date.monthLength (year month : Nat) : Nat :=
  if month = 2 then
    if year % 4 = 0 ∧ (year % 100 ≠ 0 ∨ year % 400 = 0) then 29 else 28
  else if month = 4 ∨ month = 6 ∨ month = 9 ∨ month = 11 then 30
  else 31

/-- Does the calendar have the day? -/
def Date.isValid (d : Date) : Bool :=
  1 ≤ d.year && d.year ≤ 9999 && 1 ≤ d.month && d.month ≤ 12 && 1 ≤ d.day &&
    d.day ≤ monthLength d.year d.month

/-- A date as year, month and day with hyphens. -/
def Date.text (d : Date) : String :=
  "-".intercalate [Decimal.padZeros 4 d.year, Decimal.padZeros 2 d.month, Decimal.padZeros 2 d.day]

/-- A time of day as hour, minute and second with colons; microseconds follow a point if there are
some. -/
def Clock.text (c : Clock) : String :=
  let fraction := if c.micro = 0 then "" else "." ++ Decimal.padZeros 6 c.micro
  ":".intercalate [Decimal.padZeros 2 c.hour, Decimal.padZeros 2 c.minute, Decimal.padZeros 2 c.second]
    ++ fraction

namespace Moment

/-- A distance from universal time: sign, hours and minutes. -/
def offsetText (offset : Int) : String :=
  let minutes := offset.natAbs
  (if offset < 0 then "-" else "+") ++ Decimal.padZeros 2 (minutes / 60 : Nat) ++ ":" ++
    Decimal.padZeros 2 (minutes % 60 : Nat)

/-- The plain text of a moment. -/
def text : Moment → String
  | date d => d.text
  | clock c => c.text
  | dateTime d c offset =>
    d.text ++ " " ++ c.text ++ match offset with
      | none => ""
      | some minutes => offsetText minutes

/-- The distance from universal time in a text that shows the parts of a moment. -/
def offsetQuoted (offset : Int) : String :=
  if offset = 0 then "datetime.timezone.utc"
  else
    let days := if offset < 0 then "days=-1, " else ""
    let seconds := toString (60 * (offset % 1440))
    "datetime.timezone(datetime.timedelta(" ++ days ++ "seconds=" ++ seconds ++ "))"

/-- The parts of a time of day: seconds and microseconds are left out when they are zero. -/
def clockParts (c : Clock) : List Nat :=
  if c.micro ≠ 0 then [c.hour, c.minute, c.second, c.micro]
  else if c.second ≠ 0 then [c.hour, c.minute, c.second]
  else [c.hour, c.minute]

/-- A text that shows the parts of a moment. -/
def quoted : Moment → String
  | date d => "datetime.date(" ++ parts [d.year, d.month, d.day] ++ ")"
  | clock c => "datetime.time(" ++ parts (clockParts c) ++ ")"
  | dateTime d c offset =>
    "datetime.datetime(" ++ parts ([d.year, d.month, d.day] ++ clockParts c) ++
      (match offset with
        | none => ""
        | some minutes => ", tzinfo=" ++ offsetQuoted minutes) ++ ")"
where
  /-- Numbers with commas between them. -/
  parts (numbers : List Nat) : String := ", ".intercalate (numbers.map toString)

end Moment

end WordMachine
