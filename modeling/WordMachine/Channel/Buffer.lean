/-
  A channel between recorded input and captured output.

  Input codes are consumed from the front; `position` counts them.
-/
import WordMachine.Channel.Character

namespace WordMachine

/-- Recorded input and captured output.  Codes may be any integers. -/
structure Buffer where
  /-- All input codes. -/
  input : Array Int
  /-- The number of codes that have been read. -/
  position : Nat
  /-- The codes that have been written. -/
  output : Array Int
  deriving DecidableEq, Repr

namespace Buffer

/-- A buffer with input codes and nothing read or written. -/
def ofCodes (codes : List Int) : Buffer := ⟨codes.toArray, 0, #[]⟩

/-- A buffer whose input is a text. -/
def ofText (text : String) : Buffer := ofCodes (text.toList.map fun c => (c.toNat : Int))

/-- The code that the next read gives. -/
def next? (b : Buffer) : Option Int := b.input[b.position]?

/-- The buffer after one code has been read. -/
def advance (b : Buffer) : Buffer := { b with position := b.position + 1 }

/-- The buffer after a code has been written. -/
def write (b : Buffer) (code : Int) : Buffer := { b with output := b.output.push code }

/-- Reads a code; nothing is left after the last one. -/
def read (b : Buffer) : Option Int × Buffer :=
  match b.next? with
  | none => (none, b)
  | some code => (some code, b.advance)

/-- The output as a text. -/
def text (b : Buffer) : Except CodeError String := Character.text b.output.toList

/-- The codes that have not been read. -/
def unread (b : Buffer) : List Int := b.input.toList.drop b.position

theorem next?_eq_head?_unread (b : Buffer) : b.next? = b.unread.head? := by
  simp [next?, unread, List.head?_drop]

theorem unread_advance (b : Buffer) : b.advance.unread = b.unread.tail := by
  simp [unread, advance, List.tail_drop]

end Buffer

end WordMachine
