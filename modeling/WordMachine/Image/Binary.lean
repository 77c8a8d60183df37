/-
  Binary images: two bytes per word, the lower one first.
-/
import WordMachine.Image.Words

namespace WordMachine

namespace Image

namespace Binary

/-- The number of bytes per word. -/
def wordSize : Nat := 2

/-- Why words were not encoded. -/
inductive EncodeError where
  /-- The words are no image. -/
  | image (error : ImageError)
  /-- A word is negative. -/
  | negative (word : Int)
  deriving DecidableEq, Repr

/-- Appends the words that pairs of bytes stand for; a byte without a partner is dropped. -/
def pairUp (done : Array Int) : List UInt8 → Array Int
  | low :: high :: rest => pairUp (done.push (low.toNat + 256 * high.toNat : Nat)) rest
  | _ => done

/-- The words of a binary image.  Its length is checked before its words. -/
def decode (bytes : List UInt8) : Except ImageError (List Int) :=
  if bytes.length % 2 = 0 then check (pairUp #[] bytes).toList
  else .error (.oddLength bytes.length)

/-- The bytes of a word. -/
def wordBytes (word : Int) : List UInt8 :=
  [UInt8.ofNat (word.toNat % 256), UInt8.ofNat (word.toNat / 256)]

/-- The binary image made of words. -/
def encode (words : List Int) : Except EncodeError (List UInt8) :=
  match check words with
  | .error e => .error (.image e)
  | .ok words => match words.find? (· < 0) with
    | some word => .error (.negative word)
    | none => .ok (words.flatMap wordBytes)

end Binary

end Image

end WordMachine
