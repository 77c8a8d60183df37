/-
  Numbers, dates and times of a configuration text.

  Each reader here takes the longest beginning of the text that has its form and leaves the rest.
-/
import WordMachine.Decimal
import WordMachine.Toml.Quoted
import WordMachine.Value

namespace WordMachine

namespace Toml

/-! ### Digits -/

/-- Digits of a kind, with single underscores allowed between them. -/
def digitsFrom (kind : Char → Bool) (done : Array Char) : List Char → Array Char × List Char
  | '_' :: c :: rest =>
    if kind c then digitsFrom kind (done.push c) rest else (done, '_' :: c :: rest)
  | c :: rest => if kind c then digitsFrom kind (done.push c) rest else (done, c :: rest)
  | [] => (done, [])

/-- A run of digits that starts with a digit. -/
def digits? (kind : Char → Bool) : List Char → Option (List Char × List Char)
  | c :: rest =>
    if kind c then
      let (run, rest) := digitsFrom kind #[c] rest
      some (run.toList, rest)
    else none
  | [] => none

/-- A field of two digits up to a greatest value. -/
def twoDigits? (greatest : Nat) : List Char → Option (Nat × List Char)
  | a :: b :: rest =>
    let n := Decimal.value [a, b]
    if Decimal.isDigit a ∧ Decimal.isDigit b ∧ n ≤ greatest then some (n, rest) else none
  | _ => none

/-- Takes a character off. -/
def char? (expected : Char) : List Char → Option (List Char)
  | c :: rest => if c = expected then some rest else none
  | [] => none

/-! ### Dates and times -/

/-- A date; whether the calendar has it is not checked. -/
def date? (text : List Char) : Option (Date × List Char) := do
  let year := text.take 4
  guard (year.length = 4 ∧ year.all Decimal.isDigit)
  let rest ← char? '-' (text.drop 4)
  let (month, rest) ← twoDigits? 12 rest
  let rest ← char? '-' rest
  let (day, rest) ← twoDigits? 31 rest
  guard (month ≠ 0 ∧ day ≠ 0)
  return (⟨Decimal.value year, month, day⟩, rest)

/-- A fraction of a second in microseconds; further digits are dropped. -/
def micros (text : List Char) : Nat × List Char :=
  match text with
  | '.' :: rest =>
    let digits := rest.takeWhile Decimal.isDigit
    if digits.isEmpty then (0, text)
    else
      let kept := digits.take 6
      (Decimal.value kept * Decimal.tenPower (6 - kept.length), rest.dropWhile Decimal.isDigit)
  | _ => (0, text)

/-- A time of day. -/
def clock? (text : List Char) : Option (Clock × List Char) := do
  let (hour, rest) ← twoDigits? 23 text
  let rest ← char? ':' rest
  let (minute, rest) ← twoDigits? 59 rest
  let rest ← char? ':' rest
  let (second, rest) ← twoDigits? 59 rest
  let (micro, rest) := micros rest
  return (⟨hour, minute, second, micro⟩, rest)

/-- A distance from universal time in minutes. -/
def offset? (text : List Char) : Option (Int × List Char) :=
  match text with
  | 'Z' :: rest | 'z' :: rest => some (0, rest)
  | c :: rest =>
    if c = '+' ∨ c = '-' then do
      let (hours, rest) ← twoDigits? 23 rest
      let rest ← char? ':' rest
      let (minutes, rest) ← twoDigits? 59 rest
      let distance : Int := 60 * hours + minutes
      return (if c = '-' then -distance else distance, rest)
    else none
  | [] => none

/-- A date with an optional time of day, or a time of day. -/
def moment? (text : List Char) : Option (Moment × List Char) :=
  match date? text with
  | some (date, rest) =>
    let clock := match rest with
      | 'T' :: rest' | 't' :: rest' | ' ' :: rest' => clock? rest'
      | _ => none
    match clock with
    | none => some (.date date, rest)
    | some (clock, rest) =>
      match offset? rest with
      | some (offset, rest) => some (.dateTime date clock (some offset), rest)
      | none => some (.dateTime date clock none, rest)
  | none => (clock? text).map fun (clock, rest) => (.clock clock, rest)

/-- Does the calendar have the date of a moment? -/
def isReal : Moment → Bool
  | .date date | .dateTime date _ _ => date.isValid
  | .clock _ => true

/-! ### Numbers -/

/-- The value of digits in a base. -/
def valueIn (base : Nat) (digits : List Char) : Nat :=
  digits.foldl (fun n c => base * n + (hexDigit? c).getD 0) 0

/-- A numeral with a base other than ten. -/
def basedNumeral? (text : List Char) : Option (Int × List Char) :=
  let read (base : Nat) (rest : List Char) : Option (Int × List Char) :=
    (digits? (fun c => (hexDigit? c).any (· < base)) rest).map fun (digits, rest) =>
      ((valueIn base digits : Nat), rest)
  match text with
  | '0' :: 'x' :: rest => read 16 rest
  | '0' :: 'b' :: rest => read 2 rest
  | '0' :: 'o' :: rest => read 8 rest
  | _ => none

/-- The digits before the point of a decimal numeral: a zero, or digits that do not start with
one. -/
def wholeDigits? (text : List Char) : Option (List Char × List Char) :=
  match text with
  | '0' :: rest => some (['0'], rest)
  | _ => digits? Decimal.isDigit text

/-- The digits of a fraction with the point before them; none if they are missing. -/
def fractionDigits (text : List Char) : List Char × List Char :=
  match text with
  | '.' :: rest => (digits? Decimal.isDigit rest).getD ([], text)
  | _ => ([], text)

/-- A power of ten, if there is one. -/
def exponent? (text : List Char) : Option (Int × List Char) :=
  match text with
  | c :: rest =>
    if c = 'e' ∨ c = 'E' then
      let (negative, rest) := match rest with
        | '-' :: rest' => (true, rest')
        | '+' :: rest' => (false, rest')
        | _ => (false, rest)
      (digits? Decimal.isDigit rest).map fun (digits, rest) =>
        let n : Int := Decimal.value digits
        (if negative then -n else n, rest)
    else none
  | [] => none

/-- A number.  It is an integer if it has neither a fraction nor a power of ten. -/
def number? (text : List Char) : Option (Except Error (Value × List Char)) :=
  match basedNumeral? text with
  | some (n, rest) => some (.ok (.integer n, rest))
  | none => do
    let (negative, rest) := match text with
      | '-' :: rest => (true, rest)
      | '+' :: rest => (false, rest)
      | _ => (false, text)
    let (whole, rest) ← wholeDigits? rest
    let (fraction, rest) := fractionDigits rest
    match exponent? rest, fraction with
    | none, [] =>
      if Decimal.longest < whole.length then some (.error .longNumeral)
      else
        let n : Int := Decimal.value whole
        some (.ok (.integer (if negative then -n else n), rest))
    | power, _ =>
      let (exponent, rest) := power.getD (0, rest)
      let digits := Decimal.value (whole ++ fraction)
      some (.ok (.real (.ofDecimal negative digits (exponent - fraction.length)), rest))

/-- A number that is not finite. -/
def special? (text : List Char) : Option (Value × List Char) :=
  let (negative, rest) := match text with
    | '-' :: rest => (true, rest)
    | '+' :: rest => (false, rest)
    | _ => (false, text)
  match rest with
  | 'i' :: 'n' :: 'f' :: rest => some (.real (.infinite negative), rest)
  | 'n' :: 'a' :: 'n' :: rest => some (.real .nan, rest)
  | _ => none

/-- A date, a time or a number. -/
def scalar : Parse Value := fun text =>
  match moment? text with
  | some (moment, rest) =>
    if isReal moment then .ok (.moment moment, rest) else .error .malformed
  | none =>
    match number? text with
    | some answer => answer
    | none =>
      match special? text with
      | some answer => .ok answer
      | none => .error .malformed

end Toml

end WordMachine
