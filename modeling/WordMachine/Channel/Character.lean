/-
  Character codes.

  A code is a code point when it lies in `0 … 1114111`.  Codes that do not even fit into 32 bits are
  told apart from the others that are no code points.
-/
namespace WordMachine

/-- Why a number is not the code of a character. -/
inductive CodeError where
  /-- The number does not fit into 32 bits. -/
  | wide (code : Int)
  /-- The number is no code point. -/
  | notCodePoint (code : Int)
  deriving DecidableEq, Repr

namespace Character

/-- The code of the line feed. -/
def lineFeed : Nat := 10

/-- The code point that a number stands for. -/
def ofCode (code : Int) : Except CodeError Nat :=
  if code < -2147483648 ∨ 2147483647 < code then .error (.wide code)
  else if code < 0 ∨ 1114111 < code then .error (.notCodePoint code)
  else .ok code.toNat

theorem ofCode_eq_ok_iff {code : Int} {point : Nat} :
    ofCode code = .ok point ↔ code = point ∧ point ≤ 1114111 := by
  unfold ofCode
  split
  · simp; omega
  · split
    · simp; omega
    · simp only [Except.ok.injEq]; omega

/-- The text of a sequence of character codes. -/
def text (codes : List Int) : Except CodeError String :=
  (codes.mapM ofCode).map fun points => String.ofList (points.map Char.ofNat)

end Character

end WordMachine
