/-
  Machine words and the two's complement bit operations behind them.

  A word is an integer in `0 … 32767`; every arithmetic instruction brings its result back into
  that range with `Word.reduce`.  Registers and stack are allowed to hold any integer that a host
  program puts there, so conjunction, disjunction and exclusive or are defined on all of `ℤ`, as
  operations on infinite two's complement expansions.
-/
namespace WordMachine

/-! ### Words -/

namespace Word

/-- The width of a word in bits. -/
def bits : Nat := 15

/-- The number of distinct words; results are taken modulo it. -/
def modulus : Nat := 32768

/-- All bits of a word set. -/
def mask : Nat := 32767

/-- The greatest word. -/
def max : Nat := 32767

/-- An integer is a **word** when it lies in `0 … 32767`. -/
def IsWord (value : Int) : Prop := 0 ≤ value ∧ value < 32768

instance (value : Int) : Decidable (IsWord value) :=
  inferInstanceAs (Decidable (0 ≤ value ∧ value < 32768))

/-- The word congruent to an integer. -/
def reduce (value : Int) : Int := value % 32768

theorem modulus_eq_shiftLeft : modulus = 1 <<< bits := rfl

theorem reduce_isWord (value : Int) : IsWord (reduce value) :=
  ⟨Int.emod_nonneg value (by decide), Int.emod_lt_of_pos value (by decide)⟩

theorem reduce_of_isWord {value : Int} (h : IsWord value) : reduce value = value :=
  Int.emod_eq_of_lt h.1 h.2

end Word

/-! ### Bit operations on two's complement integers -/

namespace TwosComplement

/-- The bits of `m` that are clear in `n`. -/
def without (m n : Nat) : Nat := m ^^^ (m &&& n)

/-- Bitwise conjunction. -/
def conj : Int → Int → Int
  | .ofNat m, .ofNat n => .ofNat (m &&& n)
  | .ofNat m, .negSucc n => .ofNat (without m n)
  | .negSucc m, .ofNat n => .ofNat (without n m)
  | .negSucc m, .negSucc n => .negSucc (m ||| n)

/-- Bitwise disjunction. -/
def disj : Int → Int → Int
  | .ofNat m, .ofNat n => .ofNat (m ||| n)
  | .ofNat m, .negSucc n => .negSucc (without n m)
  | .negSucc m, .ofNat n => .negSucc (without m n)
  | .negSucc m, .negSucc n => .negSucc (m &&& n)

/-- Bitwise exclusive or. -/
def exclusive : Int → Int → Int
  | .ofNat m, .ofNat n => .ofNat (m ^^^ n)
  | .ofNat m, .negSucc n => .negSucc (m ^^^ n)
  | .negSucc m, .ofNat n => .negSucc (m ^^^ n)
  | .negSucc m, .negSucc n => .ofNat (m ^^^ n)

/-- Flipping the same bits twice gives the integer back. -/
theorem exclusive_exclusive_ofNat (value : Int) (m : Nat) :
    exclusive (exclusive value (.ofNat m)) (.ofNat m) = value := by
  cases value <;> simp only [exclusive, Nat.xor_assoc, Nat.xor_self, Nat.xor_zero]

end TwosComplement

end WordMachine
