/-
  Numbers on a command line.

  Decimal digits of all scripts count as digits, and blanks of all kinds may stand around a number.
  Single underscores may stand between digits.
-/
import WordMachine.Binary64
import WordMachine.Decimal

namespace WordMachine

namespace Options

/-- The zeros of the scripts that have decimal digits, other than the first block of characters; the
other nine digits follow each of them. -/
def zeros : List Nat :=
  [1632, 1776, 1984, 2406, 2534, 2662, 2790, 2918, 3046, 3174, 3302, 3430, 3558, 3664, 3792, 3872,
    4160, 4240, 6112, 6160, 6470, 6608, 6784, 6800, 6992, 7088, 7232, 7248, 42528, 43216, 43264,
    43472, 43504, 43600, 44016, 65296, 66720, 68912, 69734, 69872, 69942, 70096, 70384, 70736,
    70864, 71248, 71360, 71472, 71904, 72016, 72784, 73040, 73120, 92768, 92864, 93008, 120782,
    120792, 120802, 120812, 120822, 123200, 123632, 125264, 130032]

/-- The blanks beyond the first block of characters. -/
def wideBlanks : List Nat :=
  [0x85, 0xa0, 0x1680, 0x2000, 0x2001, 0x2002, 0x2003, 0x2004, 0x2005, 0x2006, 0x2007, 0x2008,
    0x2009, 0x200a, 0x2028, 0x2029, 0x202f, 0x205f, 0x3000]

/-- A character in the first block that counts the same; `?` if there is none. -/
def simplify (c : Char) : Char :=
  let n := c.toNat
  if n < 127 then c
  else if wideBlanks.contains n then ' '
  else match zeros.find? fun start => start ≤ n ∧ n < start + 10 with
    | some start => Char.ofNat ('0'.toNat + (n - start))
    | none => '?'

/-- The blanks of the first block of characters. -/
def isBlank (c : Char) : Bool := c = ' ' || (9 ≤ c.toNat && c.toNat ≤ 13)

/-- The characters of a number without blanks around them. -/
def trimmed (text : String) : List Char :=
  let simple := text.toList.map simplify
  ((simple.dropWhile isBlank).reverse.dropWhile isBlank).reverse

/-- The sign of a number, and what follows it. -/
def sign (text : List Char) : Bool × List Char :=
  match text with
  | '-' :: rest => (true, rest)
  | '+' :: rest => (false, rest)
  | _ => (false, text)

/-- Does every underscore stand between two digits?  `last` is the character before the text. -/
def underscoresFit (last : Char) : List Char → Bool
  | [] => last ≠ '_'
  | c :: rest =>
    (if c = '_' then Decimal.isDigit last else last ≠ '_' || Decimal.isDigit c) &&
      underscoresFit c rest

/-- The integer that a text stands for. -/
def integer? (text : String) : Option Int :=
  let (negative, digits) := sign (trimmed text)
  let plain := digits.filter (· ≠ '_')
  if underscoresFit ' ' digits ∧ !plain.isEmpty ∧ plain.all Decimal.isDigit ∧
      plain.length ≤ Decimal.longest then
    let n : Int := Decimal.value plain
    some (if negative then -n else n)
  else none

/-- A power of ten at the end of a text; a missing one is the zeroth. -/
def power? (text : List Char) : Option Int :=
  match text with
  | [] => some 0
  | c :: rest =>
    let (negative, digits) := sign rest
    if (c = 'e' ∨ c = 'E') ∧ !digits.isEmpty ∧ digits.all Decimal.isDigit then
      let n : Int := Decimal.value digits
      some (if negative then -n else n)
    else none

/-- The floating point number that a text stands for. -/
def real? (text : String) : Option Binary64 :=
  let chars := trimmed text
  if underscoresFit ' ' chars then
    let (negative, body) := sign (chars.filter (· ≠ '_'))
    let word := String.ofList (body.map Char.toLower)
    if word = "inf" ∨ word = "infinity" then some (.infinite negative)
    else if word = "nan" then some .nan
    else
      let whole := body.takeWhile Decimal.isDigit
      let rest := body.dropWhile Decimal.isDigit
      let (fraction, rest) := match rest with
        | '.' :: rest' => (rest'.takeWhile Decimal.isDigit, rest'.dropWhile Decimal.isDigit)
        | _ => ([], rest)
      if whole.isEmpty ∧ fraction.isEmpty then none
      else (power? rest).map fun exponent =>
        .ofDecimal negative (Decimal.value (whole ++ fraction)) (exponent - fraction.length)
  else none

end Options

end WordMachine
