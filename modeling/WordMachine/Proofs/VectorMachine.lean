/-
  A machine on bit vectors.

  This is the instruction set as hardware would have it: registers and stack items are vectors of 15
  bits, cells are vectors of 16 bits, and arithmetic is that of the vectors, without any reduction.
  Whatever cannot be executed has no next state.
-/
import WordMachine.Channel
import WordMachine.Opcode
import Mathlib.Logic.Function.Basic

namespace WordMachine

/-- A machine on bit vectors. -/
structure VectorMachine where
  /-- The registers. -/
  registers : Fin 8 → BitVec 15
  /-- The stack, the newest item first. -/
  stack : List (BitVec 15)
  /-- The cells of the memory, by address. -/
  memory : BitVec 15 → BitVec 16
  /-- The character device. -/
  channel : Channel
  /-- The address of the next instruction.  It may lie outside of the memory. -/
  pc : Int
  /-- Has a halt instruction been executed? -/
  halted : Bool

namespace VectorMachine

/-! ### Operands -/

/-- The register that a slot names. -/
def register? (slot : BitVec 16) : Option (Fin 8) :=
  if 0x8000#16 ≤ slot ∧ slot ≤ 0x8007#16 then some (slot.setWidth 3).toFin else none

/-- The value of a slot: a literal when its highest bit is clear, otherwise the contents of the
register that it names. -/
def value? (v : VectorMachine) (slot : BitVec 16) : Option (BitVec 15) :=
  if slot.msb then (register? slot).map v.registers else some (slot.setWidth 15)

/-! ### Fetching -/

/-- An address as a vector, if it lies in the memory. -/
def address? (address : Int) : Option (BitVec 15) :=
  if 0 ≤ address ∧ address < 32768 then some (.ofInt 15 address) else none

/-- The cell at an address. -/
def cell? (v : VectorMachine) (address : Int) : Option (BitVec 16) :=
  (address? address).map v.memory

/-- The cells from an address on. -/
def cells? (v : VectorMachine) (address : Int) : Nat → Option (List (BitVec 16))
  | 0 => some []
  | n + 1 => do
    let cell ← v.cell? address
    let rest ← v.cells? (address + 1) n
    return cell :: rest

/-- The operation at the program counter and its slots. -/
def fetch? (v : VectorMachine) : Option (Opcode × List (BitVec 16)) := do
  let code ← v.cell? v.pc
  let op ← Opcode.ofCode? code.toNat
  let slots ← v.cells? (v.pc + 1) op.arity
  return (op, slots)

/-! ### Execution -/

/-- Continues at an address. -/
def goto (v : VectorMachine) (target : Int) : VectorMachine := { v with pc := target }

/-- Sets a register. -/
def assign (v : VectorMachine) (i : Fin 8) (x : BitVec 15) : VectorMachine :=
  { v with registers := Function.update v.registers i x }

/-- The top of the stack, and the machine without it. -/
def pop? (v : VectorMachine) : Option (BitVec 15 × VectorMachine) :=
  match v.stack with
  | [] => none
  | x :: rest => some (x, { v with stack := rest })

/-- Sets the register that a slot names to a function of two operands. -/
def combine? (v : VectorMachine) (target left right : BitVec 16)
    (f : BitVec 15 → BitVec 15 → BitVec 15) : Option VectorMachine := do
  let x ← v.value? left
  let y ← v.value? right
  let i ← register? target
  return v.assign i (f x y)

/-- Executes the operation at the program counter with its slots, counted from zero.  A halt leaves
the program counter where it is. -/
def execute? (v : VectorMachine) (op : Opcode) (slot : Nat → BitVec 16) : Option VectorMachine :=
  let next := v.goto (v.pc + op.width)
  match op with
  | .halt => some { v with halted := true }
  | .noop => some next
  | .set => do
    let x ← next.value? (slot 1)
    let i ← register? (slot 0)
    return next.assign i x
  | .push => do
    let x ← next.value? (slot 0)
    return { next with stack := x :: next.stack }
  | .pop => do
    let i ← register? (slot 0)
    let (x, below) ← next.pop?
    return below.assign i x
  | .equal => next.combine? (slot 0) (slot 1) (slot 2) fun x y => if x = y then 1 else 0
  | .greater => next.combine? (slot 0) (slot 1) (slot 2) fun x y => if y.ult x then 1 else 0
  | .jump => do
    let x ← next.value? (slot 0)
    return next.goto x.toNat
  | .jumpIf => do
    let c ← next.value? (slot 0)
    if c ≠ 0 then return next.goto (← next.value? (slot 1)).toNat else return next
  | .jumpUnless => do
    let c ← next.value? (slot 0)
    if c = 0 then return next.goto (← next.value? (slot 1)).toNat else return next
  | .add => next.combine? (slot 0) (slot 1) (slot 2) (· + ·)
  | .multiply => next.combine? (slot 0) (slot 1) (slot 2) (· * ·)
  | .modulo => do
    let y ← next.value? (slot 2)
    if y = 0 then none else next.combine? (slot 0) (slot 1) (slot 2) (· % ·)
  | .and => next.combine? (slot 0) (slot 1) (slot 2) (· &&& ·)
  | .or => next.combine? (slot 0) (slot 1) (slot 2) (· ||| ·)
  | .not => do
    let x ← next.value? (slot 1)
    let i ← register? (slot 0)
    return next.assign i (~~~x)
  | .readCell => do
    let a ← next.value? (slot 1)
    let i ← register? (slot 0)
    return next.assign i ((next.memory a).setWidth 15)
  | .writeCell => do
    let a ← next.value? (slot 0)
    let x ← next.value? (slot 1)
    return { next with memory := Function.update next.memory a (x.setWidth 16) }
  | .call => do
    let x ← next.value? (slot 0)
    let back ← address? next.pc
    return { next with stack := back :: next.stack, pc := x.toNat }
  | .ret => do
    let (x, below) ← next.pop?
    return below.goto x.toNat
  | .output => do
    let x ← next.value? (slot 0)
    (next.channel.accepts x.toNat).toOption
    return { next with channel := next.channel.emit x.toNat }
  | .input => do
    let i ← register? (slot 0)
    let code ← (← next.channel.prepare.next?.toOption)
    return { next.assign i (.ofInt 15 code) with channel := next.channel.prepare.advance }

/-- Executes the instruction at the program counter. -/
def step? (v : VectorMachine) : Option VectorMachine :=
  if v.halted then none
  else do
    let (op, slots) ← v.fetch?
    v.execute? op fun k => slots.getD k 0

/-- Executes a number of instructions. -/
def run? (v : VectorMachine) : Nat → Option VectorMachine
  | 0 => some v
  | n + 1 => do
    let last ← v.run? n
    last.step?

end VectorMachine

end WordMachine
