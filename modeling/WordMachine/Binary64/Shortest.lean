/-
  The shortest decimal text of a floating point number.

  Of all decimals that round to the number, the text shows one with the fewest digits, of these the
  nearest, and of two equally near ones the one with the even last digit.
-/
import WordMachine.Binary64

namespace WordMachine

namespace Binary64

/-- A decimal numeral: the value `digits · 10^exponent`. -/
structure Numeral where
  /-- The digits as one natural. -/
  digits : Nat
  /-- The power of ten that they are multiplied by. -/
  exponent : Int
  deriving DecidableEq, Repr

/-! ### The interval of a number

Values are counted in units of `2^-1076`, so that the middle between a number and each of its
neighbours is a whole number of units. -/

/-- The reals that round to the number `m · 2^(p - 1074)`. -/
structure Interval where
  /-- The lower end. -/
  low : Nat
  /-- The number itself. -/
  value : Nat
  /-- The upper end. -/
  high : Nat
  /-- Do the ends belong to the interval? -/
  closed : Bool

/-- The interval of a positive number.  Below a power of two the neighbour is half as far. -/
def interval (m p : Nat) : Interval :=
  let below := if m = 1 <<< 52 ∧ 0 < p then 1 else 2
  { low := (4 * m - below) <<< p
    value := (4 * m) <<< p
    high := (4 * m + 2) <<< p
    closed := m % 2 = 0 }

/-- Is `c · d` units inside the interval scaled by `n`? -/
def Interval.holds (i : Interval) (n d c : Nat) : Bool :=
  if i.closed then i.low * n ≤ c * d && c * d ≤ i.high * n
  else i.low * n < c * d && c * d < i.high * n

/-- The decimal with `count` digits in the interval that is nearest to its number.  `magnitude` is
the number of digits before the decimal point. -/
def Interval.decimal? (i : Interval) (magnitude : Int) (count : Nat) : Option Numeral :=
  let shift : Int := count - magnitude
  let n := Decimal.tenPower shift.toNat
  let d := Decimal.tenPower (-shift).toNat <<< 1076
  let c := i.value * n / d
  let numeral (c : Nat) : Option Numeral := some ⟨c, -shift⟩
  match i.holds n d c, i.holds n d (c + 1) with
  | false, false => none
  | true, false => numeral c
  | false, true => numeral (c + 1)
  | true, true =>
    let excess := 2 * (i.value * n - c * d)
    if excess < d ∨ (excess = d ∧ c % 2 = 0) then numeral c else numeral (c + 1)

/-- The shortest decimal that rounds to the positive number `m · 2^(p - 1074)`. -/
def shortest (m p : Nat) : Numeral :=
  let i := interval m p
  let magnitude : Int := Decimal.length ((i.value * Decimal.tenPower 400) >>> 1076) - 400
  ((List.range 17).findSome? fun k => i.decimal? magnitude (k + 1)).getD ⟨0, 0⟩

/-! ### Text -/

/-- The digits of a numeral without the zeros at the end. -/
def Numeral.significant (x : Numeral) : List Char :=
  ((Nat.toDigits 10 x.digits).reverse.dropWhile (· == '0')).reverse

/-- The number of digits before the decimal point; negative when zeros follow the point. -/
def Numeral.point (x : Numeral) : Int :=
  (Nat.toDigits 10 x.digits).length + x.exponent

/-- An exponent: its sign and at least two digits. -/
def exponentText (n : Int) : String :=
  let digits := Nat.toDigits 10 n.natAbs
  let padded := if digits.length < 2 then '0' :: digits else digits
  String.ofList ((if n < 0 then '-' else '+') :: padded)

/-- A numeral is written with a point when that point stands among or near its digits, and with an
exponent from `10^16` on and below `10^-4`. -/
def Numeral.text (x : Numeral) : String :=
  let digits := x.significant
  let point := x.point
  if 16 < point ∨ point ≤ -4 then
    let fraction := match digits.tail with
      | [] => []
      | rest => '.' :: rest
    String.ofList (digits.take 1 ++ fraction ++ ['e']) ++ exponentText (point - 1)
  else if point ≤ 0 then
    String.ofList ('0' :: '.' :: List.replicate (-point).toNat '0' ++ digits)
  else
    let whole := digits.take point.toNat
    let zeros := List.replicate (point.toNat - whole.length) '0'
    let fraction := match digits.drop point.toNat with
      | [] => ['0']
      | rest => rest
    String.ofList (whole ++ zeros ++ '.' :: fraction)

/-- The shortest text of a number. -/
def text : Binary64 → String
  | finite negative m p =>
    (if negative then "-" else "") ++ if m = 0 then "0.0" else (shortest m p).text
  | infinite negative => if negative then "-inf" else "inf"
  | nan => "nan"

end Binary64

end WordMachine
