/-
  Characters from bytes.

  `Utf8.scan` reads bytes until they end or until one of them cannot continue any character:
  overlong forms, surrogates and numbers above the last code point are refused at the first byte
  that rules them out.
-/
namespace WordMachine

namespace Utf8

/-- A character that has been begun: how many bytes it lacks, between which bounds the next of them
lies, and the bits read so far. -/
structure Pending where
  /-- The number of bytes to come. -/
  need : Nat
  /-- The least value of the next byte. -/
  low : Nat
  /-- The greatest value of the next byte. -/
  high : Nat
  /-- The bits of the bytes read so far. -/
  bits : Nat
  deriving DecidableEq, Repr

/-- The state between characters. -/
def Pending.start : Pending := ⟨0, 0, 0, 0⟩

/-- The character begun by a byte that is not a character on its own. -/
def begin? (b : Nat) : Option Pending :=
  if b < 0xC2 then none
  else if b < 0xE0 then some ⟨1, 0x80, 0xBF, b - 0xC0⟩
  else if b = 0xE0 then some ⟨2, 0xA0, 0xBF, 0⟩
  else if b = 0xED then some ⟨2, 0x80, 0x9F, 0xD⟩
  else if b < 0xF0 then some ⟨2, 0x80, 0xBF, b - 0xE0⟩
  else if b = 0xF0 then some ⟨3, 0x90, 0xBF, 0⟩
  else if b < 0xF4 then some ⟨3, 0x80, 0xBF, b - 0xF0⟩
  else if b = 0xF4 then some ⟨3, 0x80, 0x8F, 4⟩
  else none

/-- Why the reading of bytes stopped. -/
inductive Stop where
  /-- All bytes have been read. -/
  | complete
  /-- The bytes end inside of a character. -/
  | truncated
  /-- The byte at an index cannot stand there. -/
  | invalid (index : Nat)
  deriving DecidableEq, Repr

/-- Reads bytes from an index on, after the characters read so far. -/
def scanFrom (index : Nat) (pending : Pending) (chars : Array Char) :
    List UInt8 → Array Char × Stop
  | [] => (chars, if pending.need = 0 then .complete else .truncated)
  | byte :: rest =>
    let b := byte.toNat
    if pending.need = 0 then
      if b < 0x80 then scanFrom (index + 1) .start (chars.push (Char.ofNat b)) rest
      else match begin? b with
        | none => (chars, .invalid index)
        | some next => scanFrom (index + 1) next chars rest
    else if pending.low ≤ b ∧ b ≤ pending.high then
      let bits := 64 * pending.bits + (b - 0x80)
      if pending.need = 1 then scanFrom (index + 1) .start (chars.push (Char.ofNat bits)) rest
      else scanFrom (index + 1) ⟨pending.need - 1, 0x80, 0xBF, bits⟩ chars rest
    else (chars, .invalid index)

/-- The characters at the beginning of a sequence of bytes, and why there are no more. -/
def scan (bytes : List UInt8) : Array Char × Stop := scanFrom 0 .start #[] bytes

/-- The characters of a sequence of bytes. -/
def decode? (bytes : List UInt8) : Option (List Char) :=
  match scan bytes with
  | (chars, .complete) => some chars.toList
  | _ => none

end Utf8

end WordMachine
