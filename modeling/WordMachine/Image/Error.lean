/-
  What can be wrong with an image.
-/
import WordMachine.Text.Lines

namespace WordMachine

/-- Why a program image was refused. -/
inductive ImageError where
  /-- The image has more words than the memory has cells. -/
  | tooLong (size : Nat)
  /-- A word is not a sixteen-bit number. -/
  | wordOutOfRange (word : Int) (offset : Nat)
  /-- A binary image has an odd number of bytes. -/
  | oddLength (size : Nat)
  /-- A text image does not follow the grammar. -/
  | malformed (position : Text.Position)
  deriving DecidableEq, Repr

/-- The wording of the errors. -/
def ImageError.message : ImageError → String
  | tooLong size => s!"Image of {size} words exceeds memory"
  | wordOutOfRange word offset => s!"Word {word} at offset {offset} is not 16-bit"
  | oddLength size => s!"Binary image has odd length {size}"
  | malformed position =>
    s!"Bad text image at line {position.line}, column {position.column}"

end WordMachine
