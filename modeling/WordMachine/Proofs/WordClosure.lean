/-
  Words stay words.

  A machine holds words when its registers and its stack items lie in `0 … 32767`.  To be a word is
  a stable property, so every step keeps the invariant (`step_holdsWords`), and a cell of the memory
  holds what it held in the beginning or the word of the last step that has written it
  (`cell_after`).  `session_words` puts this together for everything that a host program can do with
  a fresh machine by steps and runs.
-/
import Mathlib.Algebra.Group.Int.Defs
import WordMachine.Proofs.Contents

namespace WordMachine

/-! ### The invariant -/

/-- A machine **holds words** when all of its registers and stack items are words. -/
structure Machine.HoldsWords (m : Machine) : Prop where
  /-- Each register is a word. -/
  register : ∀ i, Word.IsWord (m.registers.get i)
  /-- Each item of the stack is a word. -/
  item : ∀ x ∈ m.stack.items, Word.IsWord x

/-- Flipping all bits of a word gives a word. -/
theorem Word.exclusive_mask_isWord {x : Int} (h : IsWord x) :
    IsWord (TwosComplement.exclusive x mask) := by
  obtain ⟨n, rfl⟩ := Int.eq_ofNat_of_zero_le h.1
  have hn : n < 32768 := by
    have := h.2
    omega
  have hxor : n ^^^ mask < 32768 := xor_mask_lt hn (Nat.dvd_refl 32768)
  show IsWord ((n ^^^ mask : Nat) : Int)
  constructor <;> omega

theorem Word.isWord_stable : Stable IsWord where
  word _ hx := hx
  flip _ hx := exclusive_mask_isWord hx

namespace Machine

/-! ### One step -/

theorem holdsWords_iff {m : Machine} : m.HoldsWords ↔ m.Holds Word.IsWord :=
  ⟨fun h => ⟨h.register, h.item⟩, fun h => ⟨h.register, h.item⟩⟩

/-- Operands are resolved to words. -/
theorem HoldsWords.value {m : Machine} (h : m.HoldsWords) {operand : Operand} {x : Int}
    (hx : m.value operand = .ok x) : Word.IsWord x :=
  (holdsWords_iff.mp h).value Word.isWord_stable hx

theorem HoldsWords.prepare {m : Machine} (h : m.HoldsWords) (i : Instruction) :
    (m.prepare i).HoldsWords := ⟨h.register, h.item⟩

/-- **Every step keeps words words**, completed or not. -/
theorem step_holdsWords {m : Machine} (h : m.HoldsWords) : m.step.1.HoldsWords :=
  holdsWords_iff.mpr ((holdsWords_iff.mp h).step Word.isWord_stable)

/-! ### Cells -/

/-- `m.Writes a x` says that the next step of the machine is completed and stores `x` into the cell
at the address `a`. -/
structure Writes (m : Machine) (a : Fin 32768) (x : Int) : Prop where
  /-- The step is completed. -/
  completed : m.step.2 = .completed
  /-- The instruction is a write of a cell, with this address and this value. -/
  instruction : ∃ address source, m.fetch = .ok (.writeCell address source) ∧
    m.value address = .ok a.val ∧ m.value source = .ok x

/-- A completed write of a cell is the effect of its instruction. -/
theorem Writes.memory_step {m : Machine} {a : Fin 32768} {x : Int} (h : m.Writes a x) :
    ∃ cell : UInt16, x = cell.toNat ∧ m.step.1.memory = m.memory.setCell a cell := by
  obtain ⟨m', hs⟩ := step_result_eq_completed_iff.mp h.completed
  obtain ⟨address, source, hfetch, ha, hx⟩ := h.instruction
  obtain ⟨-, i, e, hi, he, rfl⟩ := step_eq_completed_iff.mp hs
  obtain rfl : i = .writeCell address source := Except.ok.inj (hi.symm.trans hfetch)
  cases he with
  | combine hf => cases hf
  | @writeCell _ _ a' cell ha' hx' =>
    have haddress : (a'.val : Int) = a.val := Except.ok.inj (ha'.symm.trans ha)
    obtain rfl : a' = a := Fin.ext (by omega)
    refine ⟨cell, Except.ok.inj (hx.symm.trans hx'), ?_⟩
    rw [hs, memory_complete]
    rfl

/-- A step that writes a cell leaves the value there. -/
theorem Writes.cell_step {m : Machine} {a : Fin 32768} {x : Int} (h : m.Writes a x) :
    m.step.1.memory.cell a = x := by
  obtain ⟨cell, rfl, hmemory⟩ := h.memory_step
  rw [hmemory, Memory.cell_setCell_self]

/-- On a machine that holds words only words are written. -/
theorem Writes.isWord {m : Machine} {a : Fin 32768} {x : Int} (h : m.Writes a x)
    (hwords : m.HoldsWords) : Word.IsWord x := by
  obtain ⟨_, _, -, -, hx⟩ := h.instruction
  exact hwords.value hx

/-- Only the write of a cell changes the memory. -/
theorem memory_apply_of_performs {m : Machine} {i : Instruction} {e : Effect}
    (he : m.Performs i e) : (m.apply e).memory = m.memory ∨
      ∃ address source a cell, i = .writeCell address source ∧ e = .store a cell ∧
        m.value address = .ok a.val ∧ m.value source = .ok cell.toNat := by
  cases he with
  | writeCell ha hx => exact .inr ⟨_, _, _, _, rfl, rfl, ha, hx⟩
  | _ => exact .inl rfl

/-- A cell that a step does not write stays as it is. -/
theorem cell_step_of_not_writes {m : Machine} {a : Fin 32768} (h : ∀ x, ¬ m.Writes a x) :
    m.step.1.memory.cell a = m.memory.cell a := by
  rcases m.step_cases with ⟨-, hs⟩ | ⟨fault, -, -, hs⟩ | ⟨i, e, -, -, -, hs⟩ | ⟨i, e, -, hi, he, hs⟩
  · rw [hs]
  · rw [hs, memory_fail]
  · rw [hs, memory_fail, memory_prepare]
  · have hmemory : m.step.1.memory = ((m.prepare i).apply e).memory := by rw [hs, memory_complete]
    rcases memory_apply_of_performs he with hsame | ⟨address, source, a', cell, rfl, rfl, ha, hx⟩
    · rw [hmemory, hsame, memory_prepare]
    · have hwrites : m.Writes a' cell.toNat := ⟨by rw [hs], address, source, hi, ha, hx⟩
      have hne : a' ≠ a := by
        rintro rfl
        exact h _ hwrites
      rw [hmemory]
      exact m.memory.cell_setCell_of_ne cell hne

/-- **The history of a cell.**  After a number of steps a cell is as in the beginning, if no step
has written it, and otherwise it holds the word that was written last. -/
theorem cell_after {m : Machine} (h : m.HoldsWords) (a : Fin 32768) (n : Nat) :
    ((m.after n).memory.cell a = m.memory.cell a ∧ ∀ j < n, ∀ x, ¬ (m.after j).Writes a x) ∨
    ∃ k < n, (m.after k).Writes a ((m.after n).memory.cell a) ∧
      Word.IsWord ((m.after n).memory.cell a) ∧
      ∀ j, k < j → j < n → ∀ x, ¬ (m.after j).Writes a x := by
  induction n with
  | zero => exact .inl ⟨rfl, fun j hj => absurd hj (Nat.not_lt_zero j)⟩
  | succ n ih =>
    rw [after_succ]
    by_cases hwrites : ∃ x, (m.after n).Writes a x
    · -- the step is the last one that has written the cell
      obtain ⟨x, hx⟩ := hwrites
      rw [hx.cell_step]
      have hword := hx.isWord (after_induction (fun _ => step_holdsWords) h n)
      exact .inr ⟨n, Nat.lt_succ_self n, hx, hword, fun j hj hj' => by omega⟩
    · have hnot : ∀ x, ¬ (m.after n).Writes a x := not_exists.mp hwrites
      rw [cell_step_of_not_writes hnot]
      rcases ih with ⟨hcell, hbefore⟩ | ⟨k, hk, hlast, hword, hbetween⟩
      · refine .inl ⟨hcell, fun j hj => ?_⟩
        rcases Nat.lt_succ_iff_lt_or_eq.mp hj with hj | rfl
        · exact hbefore j hj
        · exact hnot
      · refine .inr ⟨k, Nat.lt_succ_of_lt hk, hlast, hword, fun j hkj hj => ?_⟩
        rcases Nat.lt_succ_iff_lt_or_eq.mp hj with hj | rfl
        · exact hbetween j hkj hj
        · exact hnot

end Machine

/-! ### Sessions -/

/-- A fresh machine that is preset to words holds words, whatever its memory is. -/
theorem Machine.preset_holdsWords (channel : Channel) (memory : Memory 32768)
    {presets : List (Int × Int)} (hpresets : ∀ entry ∈ presets, Word.IsWord entry.2) :
    (({ Machine.fresh channel with memory := memory } : Machine).preset presets).HoldsWords where
  register := by
    refine preset_forall presets _ (fun i => ?_) hpresets
    show Word.IsWord (Registers.zero.get i)
    rw [Registers.get_zero]
    exact Word.zero_isWord
  item _ hx := absurd hx List.not_mem_nil

/-- **Words stay words.**  A fresh machine takes every loadable image, and when its registers are
preset to words then after every sequence of steps and runs, whatever they return, all registers
and all stack items are words, the memory has its 32768 cells, and each cell is as it was loaded or
holds the word that the last write of this cell has put there. -/
theorem Monitor.session_words {image : List Int} (himage : Image.Loadable image) (channel : Channel)
    (settings : Settings) {presets : List (Int × Int)}
    (hpresets : ∀ entry ∈ presets, Word.IsWord entry.2) :
    ∃ first, Execution.start image channel settings presets = .ok first ∧ ∀ calls,
      let last := (first.session calls).machine
      (∀ i, Word.IsWord (last.registers.get i)) ∧ (∀ x ∈ last.stack.toList, Word.IsWord x) ∧
      last.memory.toList.length = 32768 ∧
      ∃ n, last = first.machine.after n ∧ ∀ a : Fin 32768,
        (last.memory.cell a = image.getD a 0 ∧ ∀ j < n, ∀ x, ¬ (first.machine.after j).Writes a x) ∨
        ∃ k < n, (first.machine.after k).Writes a (last.memory.cell a) ∧
          Word.IsWord (last.memory.cell a) ∧
          ∀ j, k < j → j < n → ∀ x, ¬ (first.machine.after j).Writes a x := by
  obtain ⟨first, memory, hstart, hload, hfirst⟩ :=
    Execution.exists_start himage channel settings presets
  have hwords : first.machine.HoldsWords := by
    rw [hfirst]
    exact Machine.preset_holdsWords channel memory (Execution.distinct_forall hpresets)
  refine ⟨first, hstart, fun calls => ?_⟩
  obtain ⟨n, hn⟩ := first.session_machine calls
  have hlast : (first.machine.after n).HoldsWords :=
    Machine.after_induction (fun _ => Machine.step_holdsWords) hwords n
  -- the calls are a number of steps, so the invariant and the history of the cells apply
  dsimp only
  rw [hn]
  refine ⟨hlast.register, ?_, ?_, n, rfl, fun a => ?_⟩
  · intro x hx
    exact hlast.item x (List.mem_reverse.mp hx)
  · rw [Memory.toList, List.length_map, Vector.length_toList]
  · have horiginal : first.machine.memory.cell a = image.getD a 0 := by
      rw [hfirst, Machine.memory_preset]
      exact Memory.cell_load_zero hload a
    rw [← horiginal]
    exact Machine.cell_after hwords a n

/-- An image that reads the raw cell 65535 into a register, adds to it and stores the sum over its
own code: whatever is done with it, on any device and after any presetting to words, the registers
hold words. -/
theorem Monitor.session_words_of_raw_cell :
    Image.Loadable [15, 32768, 9, 9, 32768, 32768, 32775, 16, 0, 65535] ∧
      (∀ entry ∈ [((7 : Int), (32767 : Int)), (15, 32766)], Word.IsWord entry.2) ∧
      ∃ first, Execution.start [15, 32768, 9, 9, 32768, 32768, 32775, 16, 0, 65535]
        (.buffer (.ofCodes [-1, 10 ^ 30])) .default [(7, 32767), (15, 32766)] = .ok first ∧
        ∀ calls i, Word.IsWord ((first.session calls).machine.registers.get i) := by
  have himage : Image.Loadable [15, 32768, 9, 9, 32768, 32768, 32775, 16, 0, 65535] := by decide
  have hpresets : ∀ entry ∈ [((7 : Int), (32767 : Int)), (15, 32766)], Word.IsWord entry.2 := by
    decide
  obtain ⟨first, hstart, hsession⟩ :=
    Monitor.session_words himage (.buffer (.ofCodes [-1, 10 ^ 30])) .default hpresets
  exact ⟨himage, hpresets, first, hstart, fun calls => (hsession calls).1⟩

end WordMachine
