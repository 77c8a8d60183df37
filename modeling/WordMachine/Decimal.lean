/-
  Decimal numerals: writing integers into fields of a given width, and reading runs of digits.

  `Decimal.value` reads what `toString` writes (`value_digits`); `longest` bounds the length of the
  numerals that are read.
-/
namespace WordMachine

namespace Decimal

/-! ### Size -/

/-- A power of ten. -/
def tenPower (n : Nat) : Nat := Nat.pow 10 n

/-- The number of digits of a natural. -/
def length (n : Nat) : Nat := (Nat.toDigits 10 n).length

/-! ### Writing -/

/-- The numeral of an integer, preceded by as many blanks as the width asks for. -/
def padLeft (width : Nat) (n : Int) : String :=
  let text := toString n
  String.ofList (List.replicate (width - text.length) ' ') ++ text

/-- The numeral of an integer, with zeros between the sign and the digits up to the width; the sign
counts. -/
def padZeros (width : Nat) (n : Int) : String :=
  let digits := toString n.natAbs
  let sign := if n < 0 then "-" else ""
  sign ++ String.ofList (List.replicate (width - sign.length - digits.length) '0') ++ digits

/-! ### Reading -/

/-- The decimal digits of the first block of characters. -/
def isDigit (c : Char) : Bool := '0' ≤ c && c ≤ '9'

/-- The value of a digit. -/
def digitValue (c : Char) : Nat := c.toNat - '0'.toNat

/-- The value of a run of digits. -/
def value (digits : List Char) : Nat :=
  digits.foldl (fun n c => 10 * n + digitValue c) 0

/-- The greatest number of digits in a numeral that is read, leading zeros included. -/
def longest : Nat := 4300

/-- Reading the digits of a number gives it back. -/
theorem value_digits (n : Nat) : value (Nat.toDigits 10 n) = n := by
  have h := Nat.ofDigitChars_toDigits (b := 10) (n := n) (by decide) (by decide)
  exact h

end Decimal

end WordMachine
