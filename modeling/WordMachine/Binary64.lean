/-
  Binary floating point numbers of 64 bits, as exact values.

  A finite number is `± m · 2^(p - 1074)` with `m < 2^53` and `p ≤ 2045`.  `ofRatio` rounds a
  quotient of naturals to the nearest such number, a tie to the even `m`; `ofDecimal` does so for a
  decimal numeral of any length.  Comparisons with integers are exact.
-/
import WordMachine.Decimal

namespace WordMachine

/-- A binary floating point number of 64 bits. -/
inductive Binary64 where
  /-- The number `m · 2^(p - 1074)`, negated if `negative`. -/
  | finite (negative : Bool) (m p : Nat)
  /-- An infinity. -/
  | infinite (negative : Bool)
  /-- Not a number. -/
  | nan
  deriving DecidableEq, Repr

namespace Binary64

/-! ### Rounding -/

/-- The quotient of naturals rounded to the nearest integer, a tie to the even one. -/
def divNearest (n d : Nat) : Nat :=
  let q := n / d
  let r := n % d
  if 2 * r < d ∨ (2 * r = d ∧ q % 2 = 0) then q else q + 1

/-- The number nearest to `n / d`, with a given sign. -/
def ofRatio (negative : Bool) (n d : Nat) : Binary64 :=
  let scaled := n <<< 1074
  let p := (scaled / d).log2 - 52
  let m := divNearest scaled (d <<< p)
  if m < 1 <<< 53 then
    if p ≤ 2045 then finite negative m p else infinite negative
  else
    if p < 2045 then finite negative (1 <<< 52) (p + 1) else infinite negative

/-- The number nearest to an integer. -/
def ofInt (n : Int) : Binary64 := ofRatio (n < 0) n.natAbs 1

/-- The number nearest to `digits · 10^exponent`, with a given sign.  Numerals above `10^400` or
below `10^-400` are decided by their size alone. -/
def ofDecimal (negative : Bool) (digits : Nat) (exponent : Int) : Binary64 :=
  let magnitude := Decimal.length digits + exponent
  if digits = 0 ∨ magnitude < -400 then finite negative 0 0
  else if 400 < magnitude then infinite negative
  else if 0 ≤ exponent then ofRatio negative (digits * Decimal.tenPower exponent.toNat) 1
  else ofRatio negative digits (Decimal.tenPower (-exponent).toNat)

/-! ### Order and sign -/

/-- The value of a finite number in units of `2^-1074`. -/
def units (negative : Bool) (m p : Nat) : Int :=
  if negative then -(m <<< p : Nat) else (m <<< p : Nat)

/-- Is the number at most the integer?  No comparison with `nan` holds. -/
def leInt (x : Binary64) (n : Int) : Bool :=
  match x with
  | finite negative m p => units negative m p ≤ n * (1 <<< 1074 : Nat)
  | infinite negative => negative
  | nan => false

/-- Is the number a zero? -/
def isZero : Binary64 → Bool
  | finite _ m _ => m = 0
  | _ => false

/-- Is the number an infinity? -/
def isInfinite : Binary64 → Bool
  | infinite _ => true
  | _ => false

end Binary64

end WordMachine
