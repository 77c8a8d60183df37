/-
  The conditions that stop a running machine.

  A `Fault` is a cause with the number that it is about.  `Fault.kind` puts the causes into the six
  classes that log lines name, and `Fault.message` is the wording.  A `FaultReport` adds the address
  of the instruction that failed.
-/
namespace WordMachine

/-- The classes of faults. -/
inductive FaultKind where
  | invalidOpcode
  | invalidOperand
  | invalidAddress
  | stackUnderflow
  | divideByZero
  | inputExhausted
  deriving DecidableEq, Repr

/-- The name of a class in log lines. -/
def FaultKind.name : FaultKind → String
  | invalidOpcode => "InvalidOpcode"
  | invalidOperand => "InvalidOperand"
  | invalidAddress => "InvalidAddress"
  | stackUnderflow => "StackUnderflow"
  | divideByZero => "DivideByZero"
  | inputExhausted => "InputExhausted"

/-- The causes of faults. -/
inductive Fault where
  /-- A number stands for no operation. -/
  | unknownOpcode (code : Int)
  /-- An operand is neither a literal nor a register. -/
  | invalidOperand (raw : Int)
  /-- An operand that is written to is not a register. -/
  | notRegister (raw : Int)
  /-- An address lies outside the memory. -/
  | addressOutOfRange (address : Int)
  /-- An image does not fit into the memory at its base address. -/
  | imageTooLarge (size : Nat) (base : Int)
  /-- A pop from an empty stack. -/
  | popEmpty
  /-- A look at the top of an empty stack. -/
  | peekEmpty
  /-- A remainder by zero. -/
  | moduloByZero
  /-- A read after the last character of the input. -/
  | inputExhausted
  deriving DecidableEq, Repr

namespace Fault

/-- The class of a fault. -/
def kind : Fault → FaultKind
  | unknownOpcode _ => .invalidOpcode
  | invalidOperand _ | notRegister _ => .invalidOperand
  | addressOutOfRange _ | imageTooLarge _ _ => .invalidAddress
  | popEmpty | peekEmpty => .stackUnderflow
  | moduloByZero => .divideByZero
  | inputExhausted => .inputExhausted

/-- The wording of a fault. -/
def message : Fault → String
  | unknownOpcode code => s!"Unknown opcode {code}"
  | invalidOperand raw => s!"Invalid operand {raw}"
  | notRegister raw => s!"Operand {raw} is not a register"
  | addressOutOfRange address => s!"Address {address} out of range"
  | imageTooLarge size base => s!"Image of {size} words does not fit at {base}"
  | popEmpty => "Pop from empty stack"
  | peekEmpty => "Peek at empty stack"
  | moduloByZero => "Modulo by zero"
  | inputExhausted => "No more input"

end Fault

/-- A fault together with the address of the instruction that failed. -/
structure FaultReport where
  /-- Why the instruction failed. -/
  fault : Fault
  /-- Where it stands. -/
  pc : Int
  deriving DecidableEq, Repr

/-- The wording of a fault followed by its address. -/
def FaultReport.message (r : FaultReport) : String :=
  s!"{r.fault.message} (pc={r.pc})"

end WordMachine
