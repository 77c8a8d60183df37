/-
  Listings of images.

  `Listing.sweep` goes through the words from one address to another.  A word that starts an
  instruction inside of the range is listed with its operands, any other word as data.  A negative
  address counts from the end of the image.
-/
import WordMachine.Instruction

namespace WordMachine

namespace Listing

/-- What a line of a listing shows. -/
inductive Content where
  /-- A word that is no instruction. -/
  | data (word : Int)
  /-- An instruction. -/
  | code (op : Opcode) (operands : List Operand)
  deriving DecidableEq, Repr

/-- A line of a listing. -/
structure Entry where
  /-- Where the line starts. -/
  address : Int
  /-- What it shows. -/
  content : Content
  deriving DecidableEq, Repr

/-- The number of words up to the next line. -/
def Content.width : Content → Nat
  | data _ => 1
  | code op _ => op.width

theorem Content.width_pos (content : Content) : 0 < content.width := by
  cases content with
  | data => exact Nat.one_pos
  | code op => simp only [Content.width, Opcode.width]; omega

/-- The text of a line. -/
def Entry.text (e : Entry) : String :=
  match e.content with
  | .data word => s!"{Decimal.padZeros 5 e.address}: .word {word}"
  | .code op operands => Instruction.lineText e.address op operands

/-- The place of an address among `size` words. -/
def place (size : Nat) (address : Int) : Int := if address < 0 then address + size else address

/-- The word at an address. -/
def wordAt? (words : Array Int) (address : Int) : Option Int :=
  let i := place words.size address
  if 0 ≤ i then words[i.toNat]? else none

/-- The words from one address up to another; places before the first word count as the first. -/
def wordsBetween (words : Array Int) (low high : Int) : List Int :=
  (words.extract (place words.size low).toNat (place words.size high).toNat).toList

/-- What is listed at an address, when the listing stops before `stop`; nothing if there is no such
word. -/
def contentAt? (words : Array Int) (stop address : Int) : Option Content :=
  (wordAt? words address).map fun word =>
    match Opcode.ofCode? word with
    | some op =>
      if stop < address + op.width then .data word
      else .code op ((wordsBetween words (address + 1) (address + op.width)).map .ofRaw)
    | none => .data word

/-- Lists the words from an address on; fails with the first address that has no word. -/
def sweepFrom (words : Array Int) (stop address : Int) (done : Array Entry) :
    Except Int (Array Entry) :=
  if address < stop then
    match contentAt? words stop address with
    | none => .error address
    | some content =>
      have := content.width_pos
      sweepFrom words stop (address + content.width) (done.push ⟨address, content⟩)
  else .ok done
termination_by (stop - address).toNat

/-- The address before which a listing stops: the one asked for, but not behind the last word. -/
def stopAddress (size : Nat) : Option Int → Int
  | some stop => min stop size
  | none => size

/-- The listing of words from a start address up to a stop address. -/
def sweep (words : List Int) (start : Int := 0) (stop : Option Int := none) :
    Except Int (List Entry) :=
  (sweepFrom words.toArray (stopAddress words.length stop) start #[]).map Array.toList

end Listing

end WordMachine
