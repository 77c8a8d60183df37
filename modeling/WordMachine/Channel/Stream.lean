/-
  Terminals whose input is a stream of bytes.

  The stream is read in blocks, and a block with a byte that belongs to no character fails as a whole:
  the characters of the blocks before it can be read, then the input is corrupt.  A stream that ends
  inside of a character is corrupt behind its last whole character.
-/
import WordMachine.Channel.Console
import WordMachine.Text.Lines
import WordMachine.Text.Utf8

namespace WordMachine

namespace Console

/-- The number of bytes in a block. -/
def blockSize : Nat := 8192

/-- A carriage return is only passed on once it is known what follows it. -/
def withoutLastReturn (text : List Char) : List Char :=
  if text.getLast? = some '\r' then text.dropLast else text

/-- A terminal whose input is a stream of bytes in UTF-8; all line ends count the same. -/
def ofBytes (bytes : List UInt8) : Console :=
  let corrupt (text : List Char) : Console :=
    ⟨Text.normalizeLines (withoutLastReturn text), .corrupt, #[]⟩
  match Utf8.scan bytes with
  | (chars, .complete) => ⟨Text.normalizeLines chars.toList, .closed, #[]⟩
  | (chars, .truncated) => corrupt chars.toList
  | (_, .invalid index) =>
    corrupt (Utf8.scan (bytes.take (index / blockSize * blockSize))).1.toList

end Console

end WordMachine
