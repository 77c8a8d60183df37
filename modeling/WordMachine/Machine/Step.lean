/-
  One step of a machine.

  An instruction is executed in two phases.  `Machine.effect` does all checks and computes what the
  instruction will do, without doing it; `Machine.apply` then does it and cannot fail.  So an
  instruction that fails has changed nothing but the address of the next instruction, which is known
  as soon as the instruction is decoded, and the preparation of the device for a read.
-/
import WordMachine.Machine
import WordMachine.Word

namespace WordMachine

/-- Why an instruction failed. -/
inductive StepError where
  /-- A fault: it stops the machine. -/
  | fault (report : FaultReport)
  /-- A value does not fit into a memory cell.  The machine keeps running. -/
  | cellOverflow (value : Int)
  /-- The device did not read or write.  The machine keeps running. -/
  | channel (error : ChannelError)
  deriving DecidableEq, Repr

/-- What a step did. -/
inductive StepResult where
  /-- The machine was not running; nothing has changed. -/
  | ignored
  /-- An instruction has been executed. -/
  | completed
  /-- An instruction has failed. -/
  | failed (error : StepError)
  deriving DecidableEq, Repr

/-- What an instruction does once all its checks have passed. -/
inductive Effect where
  /-- Stops the machine. -/
  | halt
  /-- Does nothing. -/
  | nothing
  /-- Sets a register. -/
  | assign (register : Fin 8) (value : Int)
  /-- Pushes a value. -/
  | push (value : Int)
  /-- Moves the top of the stack, which is the value, into a register. -/
  | pop (register : Fin 8) (value : Int)
  /-- Continues elsewhere. -/
  | jump (target : Int)
  /-- Pushes an address and continues elsewhere. -/
  | call (back target : Int)
  /-- Drops the top of the stack, which is the target, and continues there. -/
  | ret (target : Int)
  /-- Sets a memory cell. -/
  | store (address : Fin 32768) (value : UInt16)
  /-- Writes a character. -/
  | emit (code : Int)
  /-- Consumes a character of the input and sets a register. -/
  | consume (register : Fin 8) (value : Int)
  deriving DecidableEq, Repr

namespace Machine

/-! ### Checks -/

/-- A fault of the instruction at the program counter. -/
def blame (m : Machine) (fault : Fault) : StepError := .fault ⟨fault, m.pc⟩

/-- The value of an operand of the current instruction. -/
def source (m : Machine) (operand : Operand) : Except StepError Int :=
  (m.value operand).mapError m.blame

/-- The register that an operand of the current instruction names. -/
def destination (m : Machine) (operand : Operand) : Except StepError (Fin 8) :=
  operand.destination.mapError m.blame

/-- Sets a register to a function of two operands, which are resolved before it is checked. -/
def combine (m : Machine) (target left right : Operand) (f : Int → Int → Int) :
    Except StepError Effect := do
  let x ← m.source left
  let y ← m.source right
  let i ← m.destination target
  return .assign i (f x y)

/-- What the instruction is going to do.  The checks of an instruction are made in the order in
which they are written here. -/
def effect (m : Machine) : Instruction → Except StepError Effect
  | .halt => return .halt
  | .noop => return .nothing
  | .set target src => do
    let x ← m.source src
    let i ← m.destination target
    return .assign i x
  | .push src => return .push (← m.source src)
  | .pop target => do
    let i ← m.destination target
    let (x, _) ← m.stack.pop.mapError m.blame
    return .pop i x
  | .equal target left right => m.combine target left right fun x y => if x = y then 1 else 0
  | .greater target left right => m.combine target left right fun x y => if y < x then 1 else 0
  | .jump target => return .jump (← m.source target)
  | .jumpIf condition target => do
    let x ← m.source condition
    if x ≠ 0 then return .jump (← m.source target) else return .nothing
  | .jumpUnless condition target => do
    let x ← m.source condition
    if x = 0 then return .jump (← m.source target) else return .nothing
  | .add target left right => m.combine target left right fun x y => Word.reduce (x + y)
  | .multiply target left right => m.combine target left right fun x y => Word.reduce (x * y)
  | .modulo target left right => do
    let y ← m.source right
    if y = 0 then throw (m.blame .moduloByZero)
    m.combine target left right fun x y => Word.reduce (x.fmod y)
  | .and target left right =>
    m.combine target left right fun x y => Word.reduce (TwosComplement.conj x y)
  | .or target left right =>
    m.combine target left right fun x y => Word.reduce (TwosComplement.disj x y)
  | .not target src => do
    let x ← m.source src
    let i ← m.destination target
    return .assign i (TwosComplement.exclusive x Word.mask)
  | .readCell target address => do
    let a ← m.source address
    let x ← (m.memory.read a).mapError m.blame
    let i ← m.destination target
    return .assign i (Word.reduce x)
  | .writeCell address src => do
    let a ← m.source address
    let x ← m.source src
    let i ← (Memory.checkAddress 32768 a).mapError m.blame
    let cell ← (Memory.toCell x).mapError .cellOverflow
    return .store i cell
  | .call target => do
    let x ← m.source target
    let _ ← (Memory.checkAddress 32768 m.nextPc).mapError m.blame
    return .call m.nextPc x
  | .ret => do
    let (x, _) ← m.stack.pop.mapError m.blame
    return .ret x
  | .output src => do
    let x ← m.source src
    (m.channel.accepts x).mapError .channel
    return .emit x
  | .input target => do
    let i ← m.destination target
    match ← m.channel.next?.mapError .channel with
    | none => throw (m.blame .inputExhausted)
    | some code => return .consume i (Word.reduce code)

/-! ### Execution -/

/-- Does what an instruction is going to do. -/
def apply (m : Machine) : Effect → Machine
  | .halt => { m with status := .halted }
  | .nothing => m
  | .assign i x => { m with registers := m.registers.set i x }
  | .push x => { m with stack := m.stack.push x }
  | .pop i x => { m with stack := m.stack.drop, registers := m.registers.set i x }
  | .jump target => { m with nextPc := target }
  | .call back target => { m with stack := m.stack.push back, nextPc := target }
  | .ret target => { m with stack := m.stack.drop, nextPc := target }
  | .store i cell => { m with memory := m.memory.setCell i cell }
  | .emit code => { m with channel := m.channel.emit code }
  | .consume i x => { m with channel := m.channel.advance, registers := m.registers.set i x }

/-- The machine once the instruction at its program counter is known. -/
def prepare (m : Machine) (i : Instruction) : Machine :=
  { m with
    nextPc := m.pc + i.width
    channel := if i.readsInput then m.channel.prepare else m.channel }

/-- The machine after an instruction has done what it does: a halt leaves the program counter where
it is. -/
def complete (m : Machine) (effect : Effect) : Machine :=
  let done := m.apply effect
  match effect with
  | .halt => { done with steps := done.steps + 1 }
  | _ => { done with pc := done.nextPc, steps := done.steps + 1 }

/-- The machine after an instruction has failed: a fault stops it, other errors do not. -/
def fail (m : Machine) : StepError → Machine
  | .fault report => { m with status := .faulted report }
  | _ => m

/-- Executes the instruction at the program counter, if the machine is running. -/
def step (m : Machine) : Machine × StepResult :=
  match m.status with
  | .running =>
    match m.fetch with
    | .error fault => (m.fail (m.blame fault), .failed (m.blame fault))
    | .ok i =>
      let ready := m.prepare i
      match ready.effect i with
      | .error e => (ready.fail e, .failed e)
      | .ok effect => (ready.complete effect, .completed)
  | _ => (m, .ignored)

end Machine

end WordMachine
