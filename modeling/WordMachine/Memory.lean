/-
  The main memory: a fixed number of sixteen-bit cells.

  Every access checks its addresses first.  Reading after a write gives the value written
  (`read_write_self`), writes elsewhere are not seen (`read_write_of_ne`), and an image that is
  loaded is checked as a whole before a single cell changes.
-/
import WordMachine.Fault
import WordMachine.Image.Error

namespace WordMachine

/-- A memory of `size` cells. -/
structure Memory (size : Nat) where
  /-- The cells, by address. -/
  cells : Vector UInt16 size
  /-- The number of words in the image that was loaded last. -/
  loadedSize : Nat
  deriving DecidableEq, Repr

/-- Why a value was not stored into a cell. -/
inductive WriteError where
  /-- The address is outside the memory. -/
  | fault (fault : Fault)
  /-- The value is not a sixteen-bit number. -/
  | cellOverflow (value : Int)
  deriving DecidableEq, Repr

/-- Why an image was not loaded. -/
inductive LoadError where
  /-- The image does not fit at its base. -/
  | fault (fault : Fault)
  /-- A word of the image is not a sixteen-bit number. -/
  | image (error : ImageError)
  deriving DecidableEq, Repr

namespace Memory

variable {size : Nat}

/-- The number of cells of a machine's memory. -/
def standardSize : Nat := 32768

/-- The address at which images are loaded and execution starts. -/
def base : Nat := 0

/-- The greatest value of a cell. -/
def cellMax : Nat := 65535

/-- All cells zero. -/
def zero (size : Nat) : Memory size := ⟨Vector.replicate size 0, 0⟩

instance : Inhabited (Memory size) := ⟨zero size⟩

/-- The cell at an address of the memory. -/
def cell (m : Memory size) (address : Fin size) : Int := m.cells[address].toNat

/-- Changes the cell at an address of the memory. -/
def setCell (m : Memory size) (address : Fin size) (value : UInt16) : Memory size :=
  { m with cells := m.cells.set address value }

/-- Why a number is not the size of a memory. -/
inductive SizeError where
  /-- The number is negative. -/
  | negative
  /-- The memory would have more bytes than can be counted. -/
  | tooLarge
  deriving DecidableEq, Repr

/-- The size of a memory.  Its bytes, two per cell, are counted in 64 bits with a sign. -/
def checkSize (size : Int) : Except SizeError Nat :=
  if size < -4611686018427387904 ∨ 4611686018427387904 ≤ size then .error .tooLarge
  else if size < 0 then .error .negative
  else .ok size.toNat

/-! ### Access by address -/

/-- The address as an index, if it lies in the memory. -/
def checkAddress (size : Nat) (address : Int) : Except Fault (Fin size) :=
  if h : 0 ≤ address ∧ address < size then .ok ⟨address.toNat, by omega⟩
  else .error (.addressOutOfRange address)

/-- The cell at an address. -/
def read (m : Memory size) (address : Int) : Except Fault Int :=
  (checkAddress size address).map m.cell

/-- The sixteen-bit number equal to an integer. -/
def toCell (value : Int) : Except Int UInt16 :=
  if 0 ≤ value ∧ value < 65536 then .ok (UInt16.ofNat value.toNat) else .error value

/-- Stores a value at an address.  The address is checked before the value. -/
def write (m : Memory size) (address value : Int) : Except WriteError (Memory size) :=
  match checkAddress size address with
  | .error fault => .error (.fault fault)
  | .ok i =>
    match toCell value with
    | .error value => .error (.cellOverflow value)
    | .ok cell => .ok (m.setCell i cell)

/-- The cells from an address on.  Nothing is checked for a length of zero; otherwise the first and
the last address have to lie in the memory.  A negative length that passes both checks selects no cell. -/
def slice (m : Memory size) (start length : Int) : Except Fault (List Int) :=
  if length = 0 then .ok []
  else
    match checkAddress size start with
    | .error fault => .error fault
    | .ok _ =>
      match checkAddress size (start + length - 1) with
      | .error fault => .error fault
      | .ok _ =>
        .ok ((m.cells.toArray.extract start.toNat (start + length).toNat).toList.map
          fun c => (c.toNat : Int))

/-! ### Images -/

/-- The first word, counted from `offset`, that is not a sixteen-bit number. -/
def firstBadWord (offset : Nat) : List Int → Option (Int × Nat)
  | [] => none
  | word :: rest =>
    if 0 ≤ word ∧ word < 65536 then firstBadWord (offset + 1) rest else some (word, offset)

/-- The cells after the words have been stored one after another from an address on. -/
def store (cells : Vector UInt16 size) (address : Nat) : List Int → Vector UInt16 size
  | [] => cells
  | word :: rest =>
    store (cells.setIfInBounds address (UInt16.ofNat word.toNat)) (address + 1) rest

/-- Stores an image at a base address.  The image has to fit, and then each of its words has to be a
sixteen-bit number; only then are cells changed. -/
def load (m : Memory size) (words : List Int) (base : Int := 0) :
    Except LoadError (Memory size) :=
  if base < 0 ∨ base + words.length > size then
    .error (.fault (.imageTooLarge words.length base))
  else
    match firstBadWord 0 words with
    | some (word, offset) => .error (.image (.wordOutOfRange word offset))
    | none => .ok ⟨store m.cells base.toNat words, words.length⟩

/-- The values of all cells. -/
def toList (m : Memory size) : List Int := m.cells.toList.map fun c => (c.toNat : Int)

/-! ### Laws -/

@[simp] theorem cell_setCell_self (m : Memory size) (i : Fin size) (value : UInt16) :
    (m.setCell i value).cell i = value.toNat := by
  simp [cell, setCell]

theorem cell_setCell_of_ne (m : Memory size) {i j : Fin size} (value : UInt16) (h : i ≠ j) :
    (m.setCell i value).cell j = m.cell j := by
  simp [cell, setCell, Fin.val_inj, h]

theorem checkAddress_eq_ok_iff {address : Int} {i : Fin size} :
    checkAddress size address = .ok i ↔ address = i.val := by
  unfold checkAddress
  split
  · simp only [Except.ok.injEq, Fin.ext_iff]; omega
  · simp; omega

theorem checkAddress_eq_error_iff {address : Int} {fault : Fault} :
    checkAddress size address = .error fault ↔
      fault = .addressOutOfRange address ∧ (address < 0 ∨ size ≤ address) := by
  unfold checkAddress
  split
  · simp; omega
  · simp only [Except.error.injEq]
    refine ⟨fun h => ⟨h.symm, by omega⟩, fun h => h.1.symm⟩

theorem read_write_self {m m' : Memory size} {address value : Int}
    (h : m.write address value = .ok m') : m'.read address = .ok value := by
  unfold write at h
  split at h
  · cases h
  · rename_i i hi
    unfold toCell at h
    split at h
    · cases h
    · rename_i hc
      split at hc
      · cases hc
        cases h
        simp only [read, hi, Except.map, cell_setCell_self, Except.ok.injEq]
        rw [UInt16.toNat_ofNat']
        omega
      · cases hc

theorem read_write_of_ne {m m' : Memory size} {address other value : Int}
    (h : m.write address value = .ok m') (hne : other ≠ address) :
    m'.read other = m.read other := by
  unfold write at h
  split at h
  · cases h
  · rename_i i hi
    split at h
    · cases h
    · cases h
      unfold read
      cases ho : checkAddress size other with
      | error fault => rfl
      | ok j =>
        rw [checkAddress_eq_ok_iff] at hi ho
        simp only [Except.map]
        rw [cell_setCell_of_ne]
        intro hij
        subst hij
        omega

end Memory

end WordMachine
