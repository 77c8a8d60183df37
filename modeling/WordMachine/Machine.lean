/-
  The machine: registers, stack, memory and a character device under a program counter.

  This module holds the state of a machine and how a host program looks at it and changes it; what
  a machine does by itself is in `Machine.Step` and `Machine.Run`.
-/
import WordMachine.Channel
import WordMachine.Instruction
import WordMachine.Memory
import WordMachine.Stack

namespace WordMachine

/-- Whether a machine goes on. -/
inductive Status where
  /-- The next step executes an instruction. -/
  | running
  /-- A halt instruction has been executed. -/
  | halted
  /-- An instruction has failed. -/
  | faulted (report : FaultReport)
  deriving DecidableEq, Repr

namespace Status

/-- The name of a status in log lines. -/
def name : Status → String
  | running => "running"
  | halted => "halted"
  | faulted _ => "faulted"

/-- The fault that has stopped the machine. -/
def report? : Status → Option FaultReport
  | faulted report => some report
  | _ => none

end Status

/-- The state of a machine. -/
structure Machine where
  /-- The registers. -/
  registers : Registers
  /-- The stack. -/
  stack : Stack
  /-- The main memory. -/
  memory : Memory 32768
  /-- The character device. -/
  channel : Channel
  /-- The address of the next instruction. -/
  pc : Int
  /-- The address at which execution continues after the current instruction. -/
  nextPc : Int
  /-- Whether the machine goes on. -/
  status : Status
  /-- The number of instructions executed so far. -/
  steps : Nat
  deriving DecidableEq

namespace Machine

/-- A machine at the start of an empty memory. -/
def fresh (channel : Channel) : Machine where
  registers := .zero
  stack := .empty
  memory := .zero 32768
  channel := channel
  pc := 0
  nextPc := 0
  status := .running
  steps := 0

/-- Stores an image. -/
def load (m : Machine) (words : List Int) (base : Int := 0) : Except LoadError Machine :=
  match m.memory.load words base with
  | .error e => .error e
  | .ok memory => .ok { m with memory := memory }

/-- The value of an operand. -/
def value (m : Machine) (operand : Operand) : Except Fault Int := operand.resolve m.registers

/-- Stores a value into the register that an operand names. -/
def assign (m : Machine) (operand : Operand) (value : Int) : Except Fault Machine :=
  operand.destination.map fun i => { m with registers := m.registers.set i value }

/-- Sets registers, in order; register numbers are taken modulo eight. -/
def preset (m : Machine) (values : List (Int × Int)) : Machine :=
  { m with registers := values.foldl (fun r (n, value) => r.set (Registers.select n) value) m.registers }

/-- The instruction at the program counter.  The operation is decoded before the addresses of its
operands are checked. -/
def fetch (m : Machine) : Except Fault Instruction :=
  match m.memory.read m.pc with
  | .error fault => .error fault
  | .ok code =>
    match Opcode.ofCode? code with
    | none => .error (.unknownOpcode code)
    | some op =>
      match m.memory.slice (m.pc + 1) op.arity with
      | .error fault => .error fault
      | .ok words => .ok (.build op fun k => .ofRaw (words.getD k 0))

/-! ### Dumps -/

/-- What a dump shows of a machine. -/
structure Snapshot where
  /-- The address of the next instruction. -/
  pc : Int
  /-- Whether the machine goes on. -/
  status : Status
  /-- The number of instructions executed so far. -/
  steps : Int
  /-- The registers. -/
  registers : Registers
  /-- The stack. -/
  stack : Stack

/-- The lines of a state dump. -/
def Snapshot.lines (s : Snapshot) : List String :=
  s!"PC:{s.pc} STATE:{s.status.name} STEPS:{s.steps}" ::
    (s.registers.dumpLines ++ [s!"STACK: {s.stack.dump}"])

/-- What a dump shows of the machine as it is. -/
def snapshot (m : Machine) : Snapshot := ⟨m.pc, m.status, m.steps, m.registers, m.stack⟩

/-- The lines of a dump of the machine. -/
def dumpLines (m : Machine) : List String := m.snapshot.lines

end Machine

end WordMachine
