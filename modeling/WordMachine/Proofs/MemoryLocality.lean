/-
  What a run has not read of the memory does not matter.

  The cells that a step reads are the opcode at the program counter, the operand words behind it,
  and the cell that a read of a cell asks for (`Machine.ReadsCell`).  Two machines that differ at
  most in some cells do the same in a step that reads none of these on the first one, and differ at
  most in the same cells after it (`AgreesOutside.step`): what is written is the same on both.
  `memory_locality` follows them through any number of steps.
-/
import Mathlib.Data.Set.Basic
import WordMachine.Proofs.Fetch
import WordMachine.Proofs.Runs

namespace WordMachine

/-! ### Memories that agree -/

namespace Memory

variable {size : Nat}

/-- Two memories **agree outside** of some addresses when all other cells are the same, and the size
of the image is, too. -/
structure AgreesOutside (addresses : Set (Fin size)) (m m' : Memory size) : Prop where
  /-- Each other cell is the same. -/
  cell : ∀ a ∉ addresses, m'.cell a = m.cell a
  /-- The size of the image is the same. -/
  loadedSize : m'.loadedSize = m.loadedSize

variable {addresses : Set (Fin size)} {m m' : Memory size}

/-- A read at an address where the memories agree gives the same, also outside of the memory. -/
theorem AgreesOutside.read (h : m.AgreesOutside addresses m') {address : Int}
    (haddress : ∀ a : Fin size, address = a.val → a ∉ addresses) :
    m'.read address = m.read address := by
  unfold Memory.read
  cases ha : checkAddress size address with
  | error fault => rfl
  | ok a =>
    have hcell := h.cell a (haddress a (checkAddress_eq_ok_iff.mp ha))
    exact congrArg Except.ok hcell

/-- Whether a slice fails does not depend on the cells. -/
theorem slice_eq_error_of_slice_eq_error (m' : Memory size) {start length : Int} {fault : Fault}
    (h : m.slice start length = .error fault) : m'.slice start length = .error fault := by
  unfold slice at h ⊢
  split at h
  · cases h
  · rename_i hlength
    rw [if_neg hlength]
    cases hfirst : checkAddress size start with
    | error fault' =>
      rw [hfirst] at h
      exact h
    | ok first =>
      rw [hfirst] at h
      cases hlast : checkAddress size (start + length - 1) with
      | error fault' =>
        rw [hlast] at h
        exact h
      | ok last =>
        rw [hlast] at h
        cases h

/-- A slice of cells that are the same in both memories is the same. -/
theorem AgreesOutside.slice (h : m.AgreesOutside addresses m') {start : Int} {length : Nat}
    (hstart : ∀ words, m.slice start length = .ok words →
      ∀ k < length, ∀ a : Fin size, start + k = a.val → a ∉ addresses) :
    m'.slice start length = m.slice start length := by
  cases hslice : m.slice start length with
  | error fault => exact slice_eq_error_of_slice_eq_error m' hslice
  | ok words =>
    obtain ⟨hlength, hreads⟩ := slice_eq_ok_iff.mp hslice
    refine slice_eq_ok_iff.mpr ⟨hlength, fun k hk => ?_⟩
    rw [h.read (hstart words hslice k (hlength ▸ hk))]
    exact hreads k hk

/-- The same value is written to the same cell, wherever that is. -/
theorem AgreesOutside.setCell (h : m.AgreesOutside addresses m') (a : Fin size) (value : UInt16) :
    (m.setCell a value).AgreesOutside addresses (m'.setCell a value) where
  cell b hb := by
    by_cases hab : a = b
    · subst hab
      rw [cell_setCell_self, cell_setCell_self]
    · rw [cell_setCell_of_ne _ _ hab, cell_setCell_of_ne _ _ hab]
      exact h.cell b hb
  loadedSize := h.loadedSize

/-- Two images of the same length that differ at most at some addresses. -/
theorem agreesOutside_of_load {words words' : List Int} (h : (zero size).load words = .ok m)
    (h' : (zero size).load words' = .ok m') (hlength : words'.length = words.length)
    (hwords : ∀ a ∉ addresses, words'.getD a.val 0 = words.getD a.val 0) :
    m.AgreesOutside addresses m' where
  cell a ha := by
    rw [cell_load_zero h, cell_load_zero h', hwords a ha]
  loadedSize := by
    obtain ⟨-, -, -, rfl⟩ := load_eq_ok_iff.mp h
    obtain ⟨-, -, -, rfl⟩ := load_eq_ok_iff.mp h'
    exact hlength

end Memory

namespace Machine

/-! ### Machines that agree -/

/-- Two machines **agree outside** of some addresses when they differ at most in the contents of the
cells there. -/
structure AgreesOutside (addresses : Set (Fin 32768)) (m m' : Machine) : Prop where
  /-- The memories agree outside of the addresses. -/
  memory : m.memory.AgreesOutside addresses m'.memory
  /-- The registers are the same. -/
  registers : m'.registers = m.registers
  /-- The stack is the same. -/
  stack : m'.stack = m.stack
  /-- The device is the same, with its input and its output. -/
  channel : m'.channel = m.channel
  /-- The program counter is the same. -/
  pc : m'.pc = m.pc
  /-- The address of the next instruction is the same. -/
  nextPc : m'.nextPc = m.nextPc
  /-- The status is the same, with the fault that has stopped the machine. -/
  status : m'.status = m.status
  /-- The number of executed instructions is the same. -/
  steps : m'.steps = m.steps

/-- `m.ReadsCell a` says that the next step of the machine reads the cell at the address `a`. -/
inductive ReadsCell (m : Machine) (a : Fin 32768) : Prop
  /-- As an opcode. -/
  | opcode (hrun : m.status = .running) (ha : m.pc = a.val)
  /-- As an operand word of the instruction. -/
  | operand (hrun : m.status = .running) {i : Instruction} (hi : m.fetch = .ok i) {k : Nat}
    (hk : k < i.opcode.arity) (ha : m.pc + 1 + k = a.val)
  /-- As the cell that the instruction asks for. -/
  | cell (hrun : m.status = .running) {target address : Operand}
    (hi : m.fetch = .ok (.readCell target address)) (ha : m.value address = .ok a.val)

variable {m m' : Machine} {addresses : Set (Fin 32768)}

/-- Machines that agree are the same but for the memory. -/
theorem AgreesOutside.eq_withMemory (h : m.AgreesOutside addresses m') :
    m' = { m with memory := m'.memory } := by
  obtain ⟨registers, stack, memory, channel, pc, nextPc, status, steps⟩ := m
  obtain ⟨registers', stack', memory', channel', pc', nextPc', status', steps'⟩ := m'
  obtain ⟨-, rfl, rfl, rfl, rfl, rfl, rfl, rfl⟩ := h
  rfl

theorem agreesOutside_withMemory {memory : Memory 32768}
    (h : m.memory.AgreesOutside addresses memory) :
    m.AgreesOutside addresses { m with memory := memory } :=
  ⟨h, rfl, rfl, rfl, rfl, rfl, rfl, rfl⟩

/-- An instruction that does not ask for a cell reads its own words only. -/
theorem ReadsCell.mem_words {a : Fin 32768} (h : m.ReadsCell a) {i : Instruction}
    (hi : m.fetch = .ok i) (hne : i.opcode ≠ .readCell) :
    m.pc ≤ a.val ∧ a.val < m.pc + i.width := by
  have hwidth : i.width = 1 + i.opcode.arity := rfl
  cases h with
  | opcode hrun ha => omega
  | operand hrun hi' hk ha =>
    obtain rfl := Except.ok.inj (hi.symm.trans hi')
    omega
  | cell hrun hi' ha =>
    obtain rfl := Except.ok.inj (hi.symm.trans hi')
    exact absurd rfl hne

/-! ### Steps -/

/-- **The same instruction is fetched** when none of its words is read from a cell that may
differ. -/
theorem AgreesOutside.fetch (h : m.AgreesOutside addresses m') (hrun : m.status = .running)
    (hreads : ∀ a ∈ addresses, ¬ m.ReadsCell a) : m'.fetch = m.fetch := by
  have hopcode : m'.memory.read m.pc = m.memory.read m.pc :=
    h.memory.read fun a ha hmem => hreads a hmem (.opcode hrun ha)
  cases hcode : m.memory.read m.pc with
  | error fault =>
    rw [hcode] at hopcode
    simp only [Machine.fetch, h.pc, hcode, hopcode]
  | ok code =>
    rw [hcode] at hopcode
    cases hop : Opcode.ofCode? code with
    | none => simp only [Machine.fetch, h.pc, hcode, hopcode, hop]
    | some op =>
      -- where the operand words are read at all, they are those of the fetched instruction
      have hslice : m'.memory.slice (m.pc + 1) op.arity = m.memory.slice (m.pc + 1) op.arity := by
        refine h.memory.slice fun words hwords k hk a ha hmem => hreads a hmem ?_
        have hi : m.fetch = .ok (.build op fun k => .ofRaw (words.getD k 0)) := by
          simp only [Machine.fetch, hcode, hop, hwords]
        exact .operand hrun hi (by rwa [Instruction.opcode_build]) ha
      simp only [Machine.fetch, h.pc, hcode, hopcode, hop, hslice]

theorem AgreesOutside.prepare (h : m.AgreesOutside addresses m') (i : Instruction) :
    (m.prepare i).AgreesOutside addresses (m'.prepare i) := by
  rw [h.eq_withMemory]
  exact agreesOutside_withMemory h.memory

theorem AgreesOutside.fail (h : m.AgreesOutside addresses m') (e : StepError) :
    (m.fail e).AgreesOutside addresses (m'.fail e) := by
  rw [h.eq_withMemory]
  cases e <;> exact agreesOutside_withMemory h.memory

/-- An effect does the same on both machines; what it writes may be one of the cells that differ. -/
theorem AgreesOutside.complete (h : m.AgreesOutside addresses m') (e : Effect) :
    (m.complete e).AgreesOutside addresses (m'.complete e) := by
  rw [h.eq_withMemory]
  cases e with
  | store a cell => exact agreesOutside_withMemory (h.memory.setCell a cell)
  | _ => exact agreesOutside_withMemory h.memory

/-- **The same checks are made**: only one instruction looks at a cell, and this cell does not
differ. -/
theorem AgreesOutside.effect (h : m.AgreesOutside addresses m') {i : Instruction}
    (hcell : ∀ target address, i = .readCell target address →
      ∀ a : Fin 32768, m.value address = .ok a.val → a ∉ addresses) :
    m'.effect i = m.effect i := by
  rw [h.eq_withMemory]
  cases i with
  | readCell target address =>
    have hvalue : ({ m with memory := m'.memory } : Machine).source address = m.source address :=
      (rfl)
    simp only [Machine.effect, hvalue]
    cases ha : m.source address with
    | error e => rfl
    | ok address' =>
      have hread : m'.memory.read address' = m.memory.read address' := by
        refine h.memory.read fun a hsame => hcell target address rfl a ?_
        rw [source_eq_ok_iff] at ha
        rw [ha, hsame]
      simp only [Check.ok_bind, hread]
      rfl
  | _ => rfl

/-- **A step does not see the cells that it does not read**: it has the same result on both
machines, and they agree after it where they have agreed before. -/
theorem AgreesOutside.step (h : m.AgreesOutside addresses m')
    (hreads : ∀ a ∈ addresses, ¬ m.ReadsCell a) :
    m'.step.2 = m.step.2 ∧ m.step.1.AgreesOutside addresses m'.step.1 := by
  by_cases hrun : m.status = .running
  · have hrun' : m'.status = .running := h.status.trans hrun
    have hfetch := h.fetch hrun hreads
    have hblame : ∀ fault, m'.blame fault = m.blame fault := fun fault => by
      rw [blame, blame, h.pc]
    cases hi : m.fetch with
    | error fault =>
      rw [step_of_fetch_eq_error hrun hi, step_of_fetch_eq_error hrun' (hfetch.trans hi), hblame]
      exact ⟨rfl, h.fail (m.blame fault)⟩
    | ok i =>
      have hi' := hfetch.trans hi
      have hready := h.prepare i
      have heffect : (m'.prepare i).effect i = (m.prepare i).effect i := by
        refine hready.effect ?_
        rintro target address rfl a ha hmem
        exact hreads a hmem (.cell hrun hi ha)
      cases he : (m.prepare i).effect i with
      | error e =>
        rw [step_of_effect_eq_error hrun hi he,
          step_of_effect_eq_error hrun' hi' (heffect.trans he)]
        exact ⟨rfl, hready.fail e⟩
      | ok e =>
        rw [step_of_performs hrun hi (effect_eq_ok_iff.mp he),
          step_of_performs hrun' hi' (effect_eq_ok_iff.mp (heffect.trans he))]
        exact ⟨rfl, hready.complete e⟩
  · have hrun' : m'.status ≠ .running := fun hsame => hrun (h.status.symm.trans hsame)
    rw [step_of_not_running hrun, step_of_not_running hrun']
    exact ⟨rfl, h⟩

/-! ### Runs -/

/-- Machines that agree still do so after any number of steps that read no cell that may differ. -/
theorem AgreesOutside.after (h : m.AgreesOutside addresses m') {n : Nat}
    (hreads : ∀ k < n, ∀ a ∈ addresses, ¬ (m.after k).ReadsCell a) :
    (m.after n).AgreesOutside addresses (m'.after n) := by
  induction n with
  | zero => exact h
  | succ n ih =>
    have hbefore := ih fun k hk => hreads k (Nat.lt_succ_of_lt hk)
    exact (hbefore.step (hreads n (Nat.lt_succ_self n))).2

/-- **A run depends on nothing in the memory but the cells that it reads.**  Take two machines that
differ at most in the contents of the cells at some addresses.  As long as no step of the first one
reads one of these cells, as an opcode, as an operand word or because an instruction asks for it,
each step has the same result on both machines, so that steps which are completed on the first one
are completed on the second one, too; and after each of them registers, stack, device, program
counter, status and number of steps are the same, and so are all cells at other addresses. -/
theorem memory_locality (h : m.AgreesOutside addresses m') {n : Nat}
    (hreads : ∀ k < n, ∀ a ∈ addresses, ¬ (m.after k).ReadsCell a) :
    (∀ k < n, (m'.after k).step.2 = (m.after k).step.2) ∧ (m.Completes n → m'.Completes n) ∧
      ∀ k ≤ n, (m.after k).AgreesOutside addresses (m'.after k) := by
  have hafter : ∀ k ≤ n, (m.after k).AgreesOutside addresses (m'.after k) := fun k hk =>
    h.after fun j hj => hreads j (Nat.lt_of_lt_of_le hj hk)
  have hresults : ∀ k < n, (m'.after k).step.2 = (m.after k).step.2 := fun k hk =>
    ((hafter k (Nat.le_of_lt hk)).step (hreads k hk)).1
  exact ⟨hresults, fun hcompletes k hk => (hresults k hk).trans (hcompletes k hk), hafter⟩

/-- An instruction that does nothing and a write of a cell, with two tails that are not read: the
cell that is written is one of those that differ. -/
theorem memory_locality_of_tail : ∃ first other,
    Execution.start [21, 16, 7, 3, 0, 9, 9, 9] .detached .default [] = .ok first ∧
      Execution.start [21, 16, 7, 3, 0, 0, 40000, 2] .detached .default [] = .ok other ∧
      first.machine.AgreesOutside {a | 5 ≤ a.val} other.machine ∧
      (∀ k < 2, ∀ a ∈ {a : Fin 32768 | 5 ≤ a.val}, ¬ (first.machine.after k).ReadsCell a) ∧
      first.machine.Completes 2 ∧ other.machine.Completes 2 ∧
      (first.machine.after 2).AgreesOutside {a | 5 ≤ a.val} (other.machine.after 2) := by
  have himage : Image.Loadable [21, 16, 7, 3, 0, 9, 9, 9] := by decide
  have himage' : Image.Loadable [21, 16, 7, 3, 0, 0, 40000, 2] := by decide
  obtain ⟨first, memory, hstart, hload, hfirst⟩ :=
    Execution.exists_start himage .detached .default []
  obtain ⟨other, memory', hstart', hload', hother⟩ :=
    Execution.exists_start himage' .detached .default []
  have hagrees : first.machine.AgreesOutside {a | 5 ≤ a.val} other.machine := by
    rw [hfirst, hother]
    refine ⟨Memory.agreesOutside_of_load hload hload' rfl fun a ha => ?_, rfl, rfl, rfl, rfl, rfl,
      rfl, rfl⟩
    have hlt : a.val < 5 := Nat.not_le.mp ha
    -- both images start with the same five words
    generalize a.val = k at hlt
    revert k
    decide
  obtain ⟨hmemory, hrun, hpc, -, -⟩ :
      first.machine.Starts [21, 16, 7, 3, 0, 9, 9, 9] .detached := by
    rw [hfirst]
    exact starts_preset hload _ _
  refine ⟨first, other, hstart, hstart', hagrees, ?_⟩
  generalize first.machine = m at hagrees hmemory hrun hpc
  have hnoop : m.fetch = .ok .noop := fetch_of_image hmemory (a := 0) hpc (by decide) rfl rfl
  have hnoopStep := step_of_performs hrun hnoop .noop
  obtain ⟨hmemory1, hrun1, hpc1⟩ : (m.after 1).memory = m.memory ∧ (m.after 1).status = .running ∧
      (m.after 1).pc = 1 := by
    rw [after_succ, after_zero, hnoopStep]
    refine ⟨rfl, hrun, ?_⟩
    show m.pc + 1 = 1
    rw [hpc]
    rfl
  have hwrite : (m.after 1).fetch = .ok (.writeCell (.literal 7) (.literal 3)) :=
    fetch_of_image (a := 1) (by rwa [hmemory1]) hpc1 (by decide) rfl rfl
  have hstores : ((m.after 1).prepare (.writeCell (.literal 7) (.literal 3))).Performs
      (.writeCell (.literal 7) (.literal 3)) (.store 7 3) := .writeCell rfl rfl
  have hwriteStep := step_of_performs hrun1 hwrite hstores
  have hcompletes : m.Completes 2 := by
    intro k hk
    obtain rfl | rfl : k = 0 ∨ k = 1 := by omega
    · rw [after_zero, hnoopStep]
    · rw [hwriteStep]
  have hreads : ∀ k < 2, ∀ a ∈ {a : Fin 32768 | 5 ≤ a.val}, ¬ (m.after k).ReadsCell a := by
    intro k hk a ha hread
    have hfive : 5 ≤ a.val := ha
    obtain rfl | rfl : k = 0 ∨ k = 1 := by omega
    · have hwords := (hread.mem_words hnoop (by decide)).2
      rw [after_zero, hpc, show Instruction.noop.width = 1 from rfl] at hwords
      omega
    · have hwords := (hread.mem_words hwrite (by decide)).2
      rw [hpc1, show (Instruction.writeCell (.literal 7) (.literal 3)).width = 3 from rfl] at hwords
      omega
  obtain ⟨-, hother, hafter⟩ := memory_locality hagrees hreads
  exact ⟨hreads, hcompletes, hother hcompletes, hafter 2 (Nat.le_refl 2)⟩

end Machine

end WordMachine
