/-
  The eight registers.

  Register numbers are taken modulo eight.  A register read after a write gives the value written
  (`get_set_self`), and a write leaves the other registers alone (`get_set_of_ne`).
-/
import WordMachine.Decimal

namespace WordMachine

/-- The contents of the registers.  A host program may store any integer. -/
structure Registers where
  /-- The values, by register number. -/
  values : Vector Int 8
  deriving DecidableEq, Repr

namespace Registers

/-- The number of registers. -/
def count : Nat := 8

/-- All registers zero. -/
def zero : Registers := ⟨Vector.replicate 8 0⟩

instance : Inhabited Registers := ⟨zero⟩

/-- The register that a number selects; numbers are taken modulo eight. -/
def select (n : Int) : Fin 8 :=
  ⟨(n % 8).toNat, by have := Int.emod_lt_of_pos n (show (0 : Int) < 8 by decide); omega⟩

/-- The value of a register. -/
def get (r : Registers) (i : Fin 8) : Int := r.values[i]

/-- Changes one register. -/
def set (r : Registers) (i : Fin 8) (value : Int) : Registers :=
  ⟨r.values.set i value⟩

/-- The values of `r0` to `r7`. -/
def toList (r : Registers) : List Int := r.values.toList

@[simp] theorem get_set_self (r : Registers) (i : Fin 8) (value : Int) :
    (r.set i value).get i = value := by
  simp [get, set]

theorem get_set_of_ne (r : Registers) {i j : Fin 8} (value : Int) (h : i ≠ j) :
    (r.set i value).get j = r.get j := by
  simp [get, set, Fin.val_inj, h]

theorem length_toList (r : Registers) : r.toList.length = count := by
  simp [toList, count]

@[simp] theorem get_zero (i : Fin 8) : zero.get i = 0 := by
  simp [get, zero]

/-! ### Text -/

/-- One register in a dump: its name, and its value in a field of five. -/
def cellText (r : Registers) (i : Fin 8) : String :=
  s!"r{i.val} => {Decimal.padLeft 5 (r.get i)}"

/-- Four registers in a dump. -/
def rowText (r : Registers) (row : List (Fin 8)) : String :=
  "  ".intercalate (row.map r.cellText)

/-- The dump of the registers: two lines of four. -/
def dumpLines (r : Registers) : List String :=
  [r.rowText [0, 1, 2, 3], r.rowText [4, 5, 6, 7]]

/-- The dump of the registers as one text. -/
def dump (r : Registers) : String := "\n".intercalate r.dumpLines

end Registers

end WordMachine
