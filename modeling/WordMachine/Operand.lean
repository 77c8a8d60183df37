/-
  Operands: what an instruction's slots stand for.

  A slot up to 32767 is a literal, the next eight numbers name the registers, and everything else is
  invalid.  `Operand.ofRaw` reads a slot and `Operand.raw` writes it back (`raw_ofRaw`).
-/
import WordMachine.Fault
import WordMachine.Registers

namespace WordMachine

/-- The meaning of an operand slot. -/
inductive Operand where
  /-- The word itself. -/
  | literal (value : Fin 32768)
  /-- The contents of a register. -/
  | register (index : Fin 8)
  /-- A number that means nothing. -/
  | invalid (raw : Int)
  deriving DecidableEq, Repr

namespace Operand

/-- The slot that names register 0. -/
def firstRegister : Nat := 32768

/-- The slot that names register 7. -/
def lastRegister : Nat := 32775

/-- Reads a slot. -/
def ofRaw (raw : Int) : Operand :=
  if h : 0 ≤ raw ∧ raw ≤ 32767 then .literal ⟨raw.toNat, by omega⟩
  else if h : 32768 ≤ raw ∧ raw ≤ 32775 then .register ⟨(raw - 32768).toNat, by omega⟩
  else .invalid raw

/-- The number in the slot. -/
def raw : Operand → Int
  | literal value => value.val
  | register index => 32768 + index.val
  | invalid raw => raw

@[simp] theorem raw_ofRaw (raw : Int) : (ofRaw raw).raw = raw := by
  unfold ofRaw
  split
  · simp only [Operand.raw]; omega
  · split
    · simp only [Operand.raw]; omega
    · rfl

@[simp] theorem ofRaw_literal (value : Fin 32768) : ofRaw (literal value).raw = literal value := by
  have h : (literal value).raw = value.val := rfl
  rw [h, ofRaw, dif_pos (by omega)]
  simp

@[simp] theorem ofRaw_register (index : Fin 8) : ofRaw (register index).raw = register index := by
  have h : (register index).raw = 32768 + index.val := rfl
  rw [h, ofRaw, dif_neg (by omega), dif_pos (by omega)]
  exact congrArg register (Fin.ext (by simp only; omega))

theorem ofRaw_firstRegister : ofRaw firstRegister = register 0 := rfl

theorem ofRaw_lastRegister : ofRaw lastRegister = register 7 := rfl

/-- Is the operand a literal? -/
def isLiteral : Operand → Bool
  | literal _ => true
  | _ => false

/-- Is the operand a register? -/
def isRegister : Operand → Bool
  | register _ => true
  | _ => false

/-- The register that an operand names as a destination. -/
def destination : Operand → Except Fault (Fin 8)
  | register index => .ok index
  | operand => .error (.notRegister operand.raw)

/-- The value of an operand. -/
def resolve (registers : Registers) : Operand → Except Fault Int
  | literal value => .ok value.val
  | register index => .ok (registers.get index)
  | invalid raw => .error (.invalidOperand raw)

/-- An operand in a listing: a literal is its numeral, a register its name, and anything else its
number after a question mark. -/
def text : Operand → String
  | literal value => toString value.val
  | register index => s!"r{index.val}"
  | invalid raw => s!"?{raw}"

end Operand

end WordMachine
