/-
  Instructions: an operation together with its operands.

  `Instruction.build` puts an operation and its operand slots together; `Instruction.opcode` and
  `Instruction.operands` take the instruction apart again (`opcode_build`, `operands_build`).
-/
import WordMachine.Opcode
import WordMachine.Operand

namespace WordMachine

/-- An operation with its operands.  `target` is the operand that is written to. -/
inductive Instruction where
  | halt
  | set (target source : Operand)
  | push (source : Operand)
  | pop (target : Operand)
  | equal (target left right : Operand)
  | greater (target left right : Operand)
  | jump (target : Operand)
  | jumpIf (condition target : Operand)
  | jumpUnless (condition target : Operand)
  | add (target left right : Operand)
  | multiply (target left right : Operand)
  | modulo (target left right : Operand)
  | and (target left right : Operand)
  | or (target left right : Operand)
  | not (target source : Operand)
  | readCell (target address : Operand)
  | writeCell (address source : Operand)
  | call (target : Operand)
  | ret
  | output (source : Operand)
  | input (target : Operand)
  | noop
  deriving DecidableEq, Repr

namespace Instruction

/-- The operation of an instruction. -/
def opcode : Instruction → Opcode
  | halt => .halt
  | set .. => .set
  | push _ => .push
  | pop _ => .pop
  | equal .. => .equal
  | greater .. => .greater
  | jump _ => .jump
  | jumpIf .. => .jumpIf
  | jumpUnless .. => .jumpUnless
  | add .. => .add
  | multiply .. => .multiply
  | modulo .. => .modulo
  | and .. => .and
  | or .. => .or
  | not .. => .not
  | readCell .. => .readCell
  | writeCell .. => .writeCell
  | call _ => .call
  | ret => .ret
  | output _ => .output
  | input _ => .input
  | noop => .noop

/-- The operands of an instruction, in order. -/
def operands : Instruction → List Operand
  | halt | ret | noop => []
  | push a | pop a | jump a | call a | output a | input a => [a]
  | set a b | jumpIf a b | jumpUnless a b | not a b | readCell a b | writeCell a b => [a, b]
  | equal a b c | greater a b c | add a b c | multiply a b c | modulo a b c | and a b c
  | or a b c => [a, b, c]

/-- The instruction made of an operation and the operands in its slots, counted from zero. -/
def build (op : Opcode) (slot : Nat → Operand) : Instruction :=
  match op with
  | .halt => halt
  | .set => set (slot 0) (slot 1)
  | .push => push (slot 0)
  | .pop => pop (slot 0)
  | .equal => equal (slot 0) (slot 1) (slot 2)
  | .greater => greater (slot 0) (slot 1) (slot 2)
  | .jump => jump (slot 0)
  | .jumpIf => jumpIf (slot 0) (slot 1)
  | .jumpUnless => jumpUnless (slot 0) (slot 1)
  | .add => add (slot 0) (slot 1) (slot 2)
  | .multiply => multiply (slot 0) (slot 1) (slot 2)
  | .modulo => modulo (slot 0) (slot 1) (slot 2)
  | .and => and (slot 0) (slot 1) (slot 2)
  | .or => or (slot 0) (slot 1) (slot 2)
  | .not => not (slot 0) (slot 1)
  | .readCell => readCell (slot 0) (slot 1)
  | .writeCell => writeCell (slot 0) (slot 1)
  | .call => call (slot 0)
  | .ret => ret
  | .output => output (slot 0)
  | .input => input (slot 0)
  | .noop => noop

/-- The length of an instruction in words. -/
def width (i : Instruction) : Nat := i.opcode.width

@[simp] theorem opcode_build (op : Opcode) (slot : Nat → Operand) :
    (build op slot).opcode = op := by
  cases op <;> rfl

@[simp] theorem operands_build (op : Opcode) (slot : Nat → Operand) :
    (build op slot).operands = (List.range op.arity).map slot := by
  cases op <;> rfl

theorem length_operands (i : Instruction) : i.operands.length = i.opcode.arity := by
  cases i <;> rfl

/-- Does the instruction get as far as reading a character?  It does when its operand names a
register. -/
def readsInput : Instruction → Bool
  | input target => target.isRegister
  | _ => false

/-! ### Text -/

/-- A line of a listing: the address in five digits, the mnemonic and the operands. -/
def lineText (address : Int) (op : Opcode) (operands : List Operand) : String :=
  " ".intercalate ((Decimal.padZeros 5 address ++ ":") :: op.mnemonic :: operands.map Operand.text)

/-- The instruction as a line of a listing. -/
def line (address : Int) (i : Instruction) : String := lineText address i.opcode i.operands

end Instruction

end WordMachine
