/-
  The instruction set: twenty-two operations, each with its number in an image, its mnemonic in a
  listing and the number of operand words that follow it.

  `Opcode.ofCode?` reads the number of an operation; it inverts `Opcode.code`
  (`ofCode?_eq_some_iff`).
-/
namespace WordMachine

/-- The operations of the machine.  In the comments `a`, `b`, `c` are the operands in order. -/
inductive Opcode where
  /-- Stops the machine. -/
  | halt
  /-- Sets register `a` to `b`. -/
  | set
  /-- Pushes `a`. -/
  | push
  /-- Pops into register `a`. -/
  | pop
  /-- Sets register `a` to 1 or 0, as `b` and `c` are equal or not. -/
  | equal
  /-- Sets register `a` to 1 or 0, as `b` is greater than `c` or not. -/
  | greater
  /-- Continues at `a`. -/
  | jump
  /-- Continues at `b` if `a` is not zero. -/
  | jumpIf
  /-- Continues at `b` if `a` is zero. -/
  | jumpUnless
  /-- Sets register `a` to the sum of `b` and `c`. -/
  | add
  /-- Sets register `a` to the product of `b` and `c`. -/
  | multiply
  /-- Sets register `a` to the remainder of `b` by `c`. -/
  | modulo
  /-- Sets register `a` to the bitwise conjunction of `b` and `c`. -/
  | and
  /-- Sets register `a` to the bitwise disjunction of `b` and `c`. -/
  | or
  /-- Sets register `a` to the complement of `b`. -/
  | not
  /-- Sets register `a` to the cell at address `b`. -/
  | readCell
  /-- Sets the cell at address `a` to `b`. -/
  | writeCell
  /-- Pushes the address of the next instruction and continues at `a`. -/
  | call
  /-- Pops an address and continues there. -/
  | ret
  /-- Writes the character with code `a`. -/
  | output
  /-- Reads a character code into register `a`. -/
  | input
  /-- Does nothing. -/
  | noop
  deriving DecidableEq, Repr, Inhabited

namespace Opcode

/-- The number that stands for the operation in an image. -/
def code : Opcode → Nat
  | halt => 0
  | set => 1
  | push => 2
  | pop => 3
  | equal => 4
  | greater => 5
  | jump => 6
  | jumpIf => 7
  | jumpUnless => 8
  | add => 9
  | multiply => 10
  | modulo => 11
  | and => 12
  | or => 13
  | not => 14
  | readCell => 15
  | writeCell => 16
  | call => 17
  | ret => 18
  | output => 19
  | input => 20
  | noop => 21

/-- All operations, by number. -/
def all : List Opcode :=
  [halt, set, push, pop, equal, greater, jump, jumpIf, jumpUnless, add, multiply, modulo, and, or,
    not, readCell, writeCell, call, ret, output, input, noop]

/-- The name of the operation in a listing. -/
def mnemonic : Opcode → String
  | halt => "halt"
  | set => "set"
  | push => "push"
  | pop => "pop"
  | equal => "eq"
  | greater => "gt"
  | jump => "jmp"
  | jumpIf => "jt"
  | jumpUnless => "jf"
  | add => "add"
  | multiply => "mult"
  | modulo => "mod"
  | and => "and"
  | or => "or"
  | not => "not"
  | readCell => "rmem"
  | writeCell => "wmem"
  | call => "call"
  | ret => "ret"
  | output => "out"
  | input => "in"
  | noop => "noop"

/-- The number of operand words that follow the operation. -/
def arity : Opcode → Nat
  | halt | ret | noop => 0
  | push | pop | jump | call | output | input => 1
  | set | jumpIf | jumpUnless | not | readCell | writeCell => 2
  | equal | greater | add | multiply | modulo | and | or => 3

/-- The length of an instruction in words, the operation's own number included. -/
def width (op : Opcode) : Nat := 1 + op.arity

/-- The operation with a given number. -/
def ofCode? (n : Int) : Option Opcode :=
  if 0 ≤ n then all[n.toNat]? else none

theorem ofCode?_code (op : Opcode) : ofCode? op.code = some op := by
  cases op <;> rfl

theorem code_injective {op op' : Opcode} (h : op.code = op'.code) : op = op' := by
  have := congrArg (fun n : Nat => ofCode? n) h
  simpa [ofCode?_code] using this

theorem code_lt (op : Opcode) : op.code < 22 := by
  cases op <;> decide

theorem ofCode?_eq_some_iff {n : Int} {op : Opcode} : ofCode? n = some op ↔ n = op.code := by
  refine ⟨fun h => ?_, fun h => h ▸ ofCode?_code op⟩
  unfold ofCode? at h
  split at h
  · rename_i hn
    have hlt : n.toNat < 22 := (List.getElem?_eq_some_iff.1 h).1
    have key : ∀ k < 22, ∀ op', all[k]? = some op' → k = op'.code := by decide
    have := key n.toNat hlt op h
    omega
  · cases h

end Opcode

end WordMachine
