/-
  What a fetch reads.

  The instruction at the program counter is the opcode there together with exactly as many operand
  words as the opcode takes, read from the cells that follow (`fetch_eq_ok_iff`).  It is fetched
  when it lies inside of the memory (`fetch_of_fits`); the three ways in which nothing is fetched are
  `fetch_of_outside`, `fetch_of_unknown` and `fetch_of_cut`.  A machine that stands in an image goes
  on through it with each instruction that neither jumps nor writes to the memory (`IsAt.step`).
-/
import WordMachine.Proofs.Loading
import WordMachine.Proofs.Steps

namespace WordMachine

/-! ### Slices -/

namespace Memory

variable {size : Nat}

/-- The words of a slice are the cells read one by one. -/
theorem read_of_slice_eq_ok {m : Memory size} {start : Int} {length : Nat} {words : List Int}
    (h : m.slice start length = .ok words) :
    words.length = length ∧ ∀ k (hk : k < words.length), m.read (start + k) = .ok words[k] := by
  unfold slice at h
  split at h
  · cases h
    exact ⟨by simp only [List.length_nil]; omega, by simp⟩
  · split at h
    · cases h
    rename_i first hfirst
    split at h
    · cases h
    rename_i last hlast
    rw [checkAddress_eq_ok_iff] at hfirst hlast
    cases h
    have hfirst' : start.toNat = first.val := by omega
    have hlast' : (start + length).toNat = last.val + 1 := by omega
    rw [hfirst', hlast']
    have hlength : (m.cells.toArray.extract first.val (last.val + 1)).size = length := by
      have := last.isLt
      rw [Array.size_extract, Vector.size_toArray]
      omega
    refine ⟨by rw [List.length_map, Array.length_toList, hlength], fun k hk => ?_⟩
    rw [List.length_map, Array.length_toList, hlength] at hk
    have hk' : first.val + k < size := by omega
    have haddress : start + k = ((⟨first.val + k, hk'⟩ : Fin size).val : Int) := by
      simp only
      omega
    rw [haddress, read_val]
    simp [cell]

/-- A slice fails because of an address only. -/
theorem slice_eq_error {m : Memory size} {start length : Int} {fault : Fault}
    (h : m.slice start length = .error fault) : ∃ a, fault = .addressOutOfRange a := by
  unfold slice at h
  split at h
  · cases h
  split at h
  · rename_i hfirst
    cases h
    exact ⟨start, (checkAddress_eq_error_iff.mp hfirst).1⟩
  · split at h
    · rename_i hlast
      cases h
      exact ⟨start + length - 1, (checkAddress_eq_error_iff.mp hlast).1⟩
    · cases h

theorem exists_slice (m : Memory size) {start : Int} {length : Nat} (hstart : 0 ≤ start)
    (hend : start + length ≤ size) : ∃ words, m.slice start length = .ok words := by
  unfold slice
  split
  · exact ⟨_, rfl⟩
  · rw [checkAddress_eq_ok_iff.mpr (show start = (⟨start.toNat, by omega⟩ : Fin size).val by
        simp only; omega),
      checkAddress_eq_ok_iff.mpr (show start + length - 1 =
        (⟨(start + length - 1).toNat, by omega⟩ : Fin size).val by simp only; omega)]
    exact ⟨_, rfl⟩

/-- **A slice is the list of its single reads**, and it succeeds exactly when all of them do. -/
theorem slice_eq_ok_iff {m : Memory size} {start : Int} {length : Nat} {words : List Int} :
    m.slice start length = .ok words ↔
      words.length = length ∧ ∀ k (hk : k < words.length), m.read (start + k) = .ok words[k] := by
  refine ⟨read_of_slice_eq_ok, ?_⟩
  rintro ⟨rfl, h⟩
  by_cases h0 : words.length = 0
  · rw [List.length_eq_zero_iff] at h0
    subst h0
    rfl
  -- the first and the last read put the whole slice inside of the memory
  obtain ⟨first, hfirst, -⟩ := read_eq_ok_iff.mp (h 0 (by omega))
  obtain ⟨last, hlast, -⟩ := read_eq_ok_iff.mp (h (words.length - 1) (by omega))
  have hend : start + words.length ≤ size := by
    have := last.isLt
    omega
  obtain ⟨words', h'⟩ := m.exists_slice (by omega) hend
  obtain ⟨hlength, hreads⟩ := read_of_slice_eq_ok h'
  rw [h', Except.ok.injEq]
  refine List.ext_getElem hlength fun k hk' hk => ?_
  exact Except.ok.inj ((hreads k hk').symm.trans (h k hk))

end Memory

namespace Memory

variable {size : Nat}

/-! ### Cells as a list -/

end Memory

/-! ### Instructions -/

/-- An instruction is its opcode and its operands. -/
theorem Instruction.ext_opcode_operands {i j : Instruction} (hop : i.opcode = j.opcode)
    (hoperands : i.operands = j.operands) : i = j := by
  cases i <;> cases j <;> cases hop <;> simp_all [operands]

theorem Instruction.operands_build_words {op : Opcode} {words : List Int}
    (hlength : words.length = op.arity) :
    (build op fun k => .ofRaw (words.getD k 0)).operands = words.map .ofRaw := by
  rw [operands_build, ← hlength]
  refine List.ext_getElem (by simp) fun k hk _ => ?_
  rw [List.length_map, List.length_range] at hk
  simp [List.getElem?_eq_getElem hk]

namespace Machine

/-- **Fetching** reads the opcode at the program counter and the operand words behind it, as many as
the opcode takes. -/
theorem fetch_eq_ok_iff {m : Machine} {i : Instruction} :
    m.fetch = .ok i ↔ m.memory.read m.pc = .ok i.opcode.code ∧
      ∃ words : List Int, words.length = i.opcode.arity ∧ i.operands = words.map .ofRaw ∧
        ∀ k (hk : k < words.length), m.memory.read (m.pc + 1 + k) = .ok words[k] := by
  constructor
  · -- the three reads of a fetch, one after another
    intro h
    unfold fetch at h
    split at h
    · cases h
    rename_i code hcode
    split at h
    · cases h
    rename_i op hop
    split at h
    · cases h
    rename_i words hwords
    cases h
    obtain ⟨hlength, hreads⟩ := Memory.slice_eq_ok_iff.mp hwords
    rw [Opcode.ofCode?_eq_some_iff] at hop
    rw [Instruction.opcode_build, ← hop]
    exact ⟨hcode, words, hlength, Instruction.operands_build_words hlength, hreads⟩
  · rintro ⟨hcode, words, hlength, hoperands, hreads⟩
    have hslice := Memory.slice_eq_ok_iff.mpr ⟨hlength, hreads⟩
    simp only [fetch, hcode, Opcode.ofCode?_code, hslice, Except.ok.injEq]
    refine Instruction.ext_opcode_operands (Instruction.opcode_build _ _) ?_
    rw [Instruction.operands_build_words hlength, hoperands]

/-- **An instruction of an image** is fetched from where it stands in the image. -/
theorem fetch_of_image {m : Machine} {image : List Int}
    (hload : (Memory.zero 32768).load image = .ok m.memory) {i : Instruction} {a : Nat}
    (hpc : m.pc = a) (hfits : a + i.width ≤ 32768) (hcode : image.getD a 0 = i.opcode.code)
    (hoperands : i.operands =
      (List.range i.opcode.arity).map fun k => .ofRaw (image.getD (a + 1 + k) 0)) :
    m.fetch = .ok i := by
  have hwidth : i.width = 1 + i.opcode.arity := rfl
  rw [fetch_eq_ok_iff, hpc, Memory.read_load_zero hload (by omega), hcode]
  refine ⟨rfl, (List.range i.opcode.arity).map fun k => image.getD (a + 1 + k) 0, by simp, ?_, ?_⟩
  · rw [hoperands, List.map_map]
    rfl
  · intro k hk
    rw [List.length_map, List.length_range] at hk
    rw [show (a : Int) + 1 + k = (a + 1 + k : Nat) by omega, Memory.read_load_zero hload (by omega)]
    simp

/-! What is fetched is decided by three questions: whether there is a word at the program counter,
whether it is an opcode, and whether the instruction ends inside of the memory. -/

/-- Nothing is fetched from outside of the memory. -/
theorem fetch_of_outside {m : Machine} (h : m.pc < 0 ∨ 32768 ≤ m.pc) :
    m.fetch = .error (.addressOutOfRange m.pc) := by
  have hread : m.memory.read m.pc = .error (.addressOutOfRange m.pc) :=
    Memory.read_eq_error_iff.mpr ⟨rfl, h⟩
  simp only [fetch, hread]

theorem fetch_of_unknown {m : Machine} {code : Int} (hcode : m.memory.read m.pc = .ok code)
    (hunknown : Opcode.ofCode? code = none) : m.fetch = .error (.unknownOpcode code) := by
  simp only [fetch, hcode, hunknown]

/-- An instruction that is cut by the end of the memory is not fetched. -/
theorem fetch_of_cut {m : Machine} {op : Opcode} (hcode : m.memory.read m.pc = .ok op.code)
    (hcut : 32768 < m.pc + op.width) : ∃ a, m.fetch = .error (.addressOutOfRange a) := by
  cases hslice : m.memory.slice (m.pc + 1) op.arity with
  | error fault =>
    obtain ⟨a, rfl⟩ := Memory.slice_eq_error hslice
    exact ⟨a, by simp only [fetch, hcode, Opcode.ofCode?_code, hslice]⟩
  | ok words =>
    -- the slice would reach the last operand, which lies behind the last cell
    have hwidth : op.width = 1 + op.arity := rfl
    obtain ⟨hlength, hreads⟩ := Memory.slice_eq_ok_iff.mp hslice
    obtain ⟨first, hfirst, -⟩ := Memory.read_eq_ok_iff.mp hcode
    have hfirst' := first.isLt
    obtain ⟨last, hlast, -⟩ := Memory.read_eq_ok_iff.mp (hreads (op.arity - 1) (by omega))
    have hlast' := last.isLt
    omega

/-- Nothing else keeps an instruction from being fetched. -/
theorem fault_of_fetch {m : Machine} {fault : Fault} (h : m.fetch = .error fault) :
    (∃ a, fault = .addressOutOfRange a) ∨ ∃ code, fault = .unknownOpcode code := by
  unfold fetch at h
  split at h
  · rename_i hcode
    cases h
    exact .inl ⟨m.pc, (Memory.read_eq_error_iff.mp hcode).1⟩
  · rename_i code hcode
    split at h
    · cases h
      exact .inr ⟨code, rfl⟩
    · split at h
      · rename_i hslice
        cases h
        exact .inl (Memory.slice_eq_error hslice)
      · cases h

end Machine

/-! ### Machines in an image -/

/-- Does execution go on behind the instruction, with the same memory? -/
def Effect.passes : Effect → Bool
  | nothing | assign _ _ | push _ | pop _ _ | emit _ | consume _ _ => true
  | halt | jump _ | call _ _ | ret _ | store _ _ => false

namespace Machine

/-- A machine is **at** a place of an image when it is running there and has nothing but the image in
its memory. -/
structure IsAt (m : Machine) (image : List Int) (a : Nat) : Prop where
  loaded : (Memory.zero 32768).load image = .ok m.memory
  running : m.status = .running
  pc : m.pc = a

/-- An instruction that passes leads to the place behind it. -/
theorem IsAt.step {m : Machine} {image : List Int} {a : Nat} {i : Instruction} {e : Effect}
    (h : m.IsAt image a) (hi : m.fetch = .ok i) (he : (m.prepare i).Performs i e)
    (hpasses : e.passes = true) : m.step.1.IsAt image (a + i.width) := by
  have hnext : (m.prepare i).nextPc = (a + i.width : Nat) := by
    show m.pc + i.width = _
    rw [h.pc]
    rfl
  rw [step_of_performs h.running hi he]
  cases e with
  | nothing | assign | push | pop | emit | consume => exact ⟨h.loaded, h.running, hnext⟩
  | halt | jump | call | ret | store => cases hpasses

end Machine

end WordMachine
