/-
  What one instruction changes.

  An instruction names at most one register as its destination, and its effect sets this register or
  none (`target?_of_performs`).  What it does to stack, memory and recorded input and output depends
  on its opcode only (`stackFrame_of_performs`, `memoryFrame_of_performs`,
  `bufferFrame_of_performs`).  `Machine.step_frame` says what a completed step may change, for all
  integers that a host program has put into the machine: nothing outside of this frame.
-/
import WordMachine.Proofs.Loading
import WordMachine.Proofs.Fetch
import WordMachine.Proofs.Steps

namespace WordMachine

/-! ### Registers -/

/-- The operand that an instruction names as its destination. -/
def Instruction.target? : Instruction → Option Operand
  | set target _ | equal target _ _ | greater target _ _ | add target _ _ | multiply target _ _
  | modulo target _ _ | and target _ _ | or target _ _ | not target _ | readCell target _
  | pop target | input target => some target
  | halt | push _ | jump _ | jumpIf _ _ | jumpUnless _ _ | writeCell _ _ | call _ | ret | output _
  | noop => none

/-- The register that an effect sets. -/
def Effect.register? : Effect → Option (Fin 8)
  | assign i _ | pop i _ | consume i _ => some i
  | halt | nothing | push _ | jump _ | call _ _ | ret _ | store _ _ | emit _ => none

theorem Instruction.Combines.target? {i : Instruction} {target left right : Operand}
    {f : Int → Int → Int} (hf : i.Combines target left right f) : i.target? = some target := by
  cases hf <;> rfl

namespace Machine

variable {m m' : Machine} {i : Instruction} {e : Effect}

/-- The register that is set is the destination of the instruction. -/
theorem target?_of_performs (he : m.Performs i e) :
    i.target? = e.register?.map Operand.register := by
  have hregister : ∀ {target : Operand} {j : Fin 8}, target.destination = .ok j →
      some target = some (Operand.register j) := by
    intro target j hj
    rw [Operand.eq_register_of_destination hj]
  cases he with
  | set _ hi | modulo _ _ hi | not _ hi | readCell _ hi | pop hi | input hi =>
    exact hregister hi
  | combine hf _ _ hi =>
    rw [hf.target?]
    exact hregister hi
  | _ => rfl

theorem get_apply {j : Fin 8} (hj : e.register? ≠ some j) :
    (m.apply e).registers.get j = m.registers.get j := by
  cases e with
  | assign i x | pop i x | consume i x =>
    apply Registers.get_set_of_ne
    intro heq
    exact hj (congrArg some heq)
  | _ => rfl

theorem get_apply_of_performs (he : m.Performs i e) {j : Fin 8}
    (hj : i.target? ≠ some (.register j)) :
    (m.apply e).registers.get j = m.registers.get j := by
  apply get_apply
  intro hregister
  apply hj
  rw [target?_of_performs he, hregister]
  rfl

/-! ### Stack, memory and device -/

/-- The stack behind a completed instruction: one more item, one less, or the same items. -/
def StackFrame (m : Machine) (stack : Stack) : Instruction → Prop
  | .push source => ∃ x, m.value source = .ok x ∧ stack = m.stack.push x
  | .call _ => stack = m.stack.push (m.pc + 2)
  | .pop _ | .ret => ∃ x, m.stack = stack.push x
  | _ => stack = m.stack

/-- The memory behind a completed instruction: a write changes one cell, at the address that its
operand is resolved to. -/
def MemoryFrame (m : Machine) (memory : Memory 32768) : Instruction → Prop
  | .writeCell address source => ∃ a : Fin 32768, m.value address = .ok a.val ∧
      m.value source = .ok (memory.cell a) ∧ (∀ c ≠ a, memory.cell c = m.memory.cell c) ∧
      memory.loadedSize = m.memory.loadedSize
  | _ => memory = m.memory

/-- Recorded input and output behind a completed instruction: one more code has been written, one
more has been read, or neither. -/
def BufferFrame (m : Machine) (b b' : Buffer) : Instruction → Prop
  | .output source => ∃ code, m.value source = .ok code ∧
      b' = { b with output := b.output.push code }
  | .input _ => b.position < b.input.size ∧ b' = { b with position := b.position + 1 }
  | _ => b' = b

theorem stackFrame_of_performs (he : m.Performs i e) (hnext : m.nextPc = m.pc + i.width) :
    m.StackFrame (m.apply e).stack i := by
  have hdrop : ∀ {x : Int} {rest : List Int}, m.stack.items = x :: rest →
      ∃ x, m.stack = m.stack.drop.push x := by
    intro x rest hitems
    refine ⟨x, ?_⟩
    rw [Stack.drop, Stack.push, hitems, List.tail_cons, ← hitems]
  cases he with
  | push hx => exact ⟨_, hx, rfl⟩
  | pop hi hitems => exact hdrop hitems
  | ret hitems => exact hdrop hitems
  | call back hx hback =>
    rw [StackFrame, ← show m.nextPc = m.pc + 2 from hnext, hback]
    rfl
  | combine hf => cases hf <;> rfl
  | _ => rfl

theorem memoryFrame_of_performs (he : m.Performs i e) : m.MemoryFrame (m.apply e).memory i := by
  cases he with
  | @writeCell address source a cell ha hx =>
    refine ⟨a, ha, ?_, ?_, rfl⟩
    · rw [hx]
      exact congrArg Except.ok (m.memory.cell_setCell_self a cell).symm
    · intro c hc
      exact m.memory.cell_setCell_of_ne cell hc.symm
  | combine hf => cases hf <;> rfl
  | _ => rfl

theorem bufferFrame_of_performs {b : Buffer} (hchannel : m.channel = .buffer b)
    (he : m.Performs i e) : ∃ b', (m.apply e).channel = .buffer b' ∧ m.BufferFrame b b' i := by
  cases he with
  | @output source x hx haccepts =>
    refine ⟨b.write x, ?_, x, hx, rfl⟩
    simp only [apply, hchannel, Channel.emit]
  | input hi hcode =>
    rw [hchannel] at hcode
    obtain ⟨hlt, -⟩ := Array.getElem?_eq_some_iff.mp (Except.ok.inj hcode)
    refine ⟨b.advance, ?_, hlt, rfl⟩
    simp only [apply, hchannel, Channel.advance]
  | combine hf => cases hf <;> exact ⟨b, hchannel, rfl⟩
  | _ => exact ⟨b, hchannel, rfl⟩

/-! ### Steps -/

/-- `m.Frame b i m'` says that the machine `m'` differs from the machine `m`, which is connected to
the recorded input and output `b`, at most where the instruction `i` may change it, and in program
counter, address of the next instruction, status and number of steps. -/
structure Frame (m : Machine) (b : Buffer) (i : Instruction) (m' : Machine) : Prop where
  /-- The destination of the instruction is a register. -/
  target : ∀ operand, i.target? = some operand → ∃ j, operand = .register j
  /-- No other register changes. -/
  registers : ∀ j, i.target? ≠ some (.register j) → m'.registers.get j = m.registers.get j
  /-- The stack changes as the instruction says. -/
  stack : m.StackFrame m'.stack i
  /-- The memory changes as the instruction says. -/
  memory : m.MemoryFrame m'.memory i
  /-- The size of the image does not change. -/
  loadedSize : m'.memory.loadedSize = m.memory.loadedSize
  /-- Input and output change as the instruction says. -/
  buffer : ∃ b', m'.channel = .buffer b' ∧ m.BufferFrame b b' i
  /-- There is no fault. -/
  fault : m.status.report? = none ∧ m'.status.report? = none

theorem MemoryFrame.loadedSize {memory : Memory 32768} (h : m.MemoryFrame memory i) :
    memory.loadedSize = m.memory.loadedSize := by
  cases i with
  | writeCell address source =>
    obtain ⟨a, -, -, -, hsize⟩ := h
    exact hsize
  | _ => exact congrArg Memory.loadedSize h

/-- **The frame of one instruction.**  Every completed step on recorded input and output executes an
instruction, and changes nothing outside of the frame of this instruction. -/
theorem step_frame {b : Buffer} (hchannel : m.channel = .buffer b)
    (hstep : m.step = (m', .completed)) : ∃ i, m.fetch = .ok i ∧ m.Frame b i m' := by
  obtain ⟨hrun, i, e, hi, he, rfl⟩ := step_eq_completed_iff.mp hstep
  have hmemory := memoryFrame_of_performs he
  have hcompleted : m.step.2 = .completed := by rw [hstep]
  have hstatus := status_step_of_completed hcompleted
  rw [hstep] at hstatus
  refine ⟨i, hi, ?_, ?_, ?_, ?_, ?_, ?_, ?_, ?_⟩
  · intro operand htarget
    rw [target?_of_performs he, Option.map_eq_some_iff] at htarget
    obtain ⟨j, -, rfl⟩ := htarget
    exact ⟨j, rfl⟩
  · intro j hj
    rw [registers_complete]
    exact get_apply_of_performs he hj
  · rw [stack_complete]
    exact stackFrame_of_performs he rfl
  · rw [memory_complete]
    exact hmemory
  · rw [memory_complete]
    exact hmemory.loadedSize
  · rw [channel_complete]
    exact bufferFrame_of_performs (channel_prepare_buffer hchannel i) he
  · rw [hrun]
    rfl
  · rcases hstatus with h | h <;> rw [h] <;> rfl

/-- A write to the cell from which it has been fetched, with an address and a value that come out of
registers.  A register that the write does not name holds a number that is no word. -/
theorem step_frame_of_write_to_itself : ∃ first,
    Execution.start [16, 32768, 32769] (.buffer (.ofCodes [65])) .default [(1, 9), (2, -70000)] =
        .ok first ∧
      first.machine.channel = .buffer (.ofCodes [65]) ∧ first.machine.step.2 = .completed ∧
      first.machine.step.1.memory.cell 0 = 9 ∧
      (∀ c ≠ 0, first.machine.step.1.memory.cell c = first.machine.memory.cell c) ∧
      (∀ j, first.machine.step.1.registers.get j = first.machine.registers.get j) ∧
      first.machine.registers.get 2 = -70000 := by
  have himage : Image.Loadable [16, 32768, 32769] := by decide
  obtain ⟨first, memory, hstart, hload, hfirst⟩ := Execution.exists_start himage
    (.buffer (.ofCodes [65])) .default [(1, 9), (2, -70000)]
  refine ⟨first, hstart, ?_⟩
  obtain ⟨hmemory, hrun, hpc, -, hchannel⟩ :
      first.machine.Starts [16, 32768, 32769] (.buffer (.ofCodes [65])) := by
    rw [hfirst]
    exact starts_preset hload _ _
  have hregister : ∀ j x, (Registers.zero.set 1 9 |>.set 2 (-70000)).get j = x →
      first.machine.value (.register j) = .ok x := by
    rintro j x rfl
    rw [hfirst]
    rfl
  have haddress : first.machine.value (.register 0) = .ok (0 : Fin 32768).val := hregister 0 0 rfl
  have hvalue : first.machine.value (.register 1) = .ok (9 : UInt16).toNat := hregister 1 9 rfl
  have hthird : first.machine.registers.get 2 = -70000 := Except.ok.inj (hregister 2 _ rfl)
  generalize first.machine = m at *
  have hfetch : m.fetch = .ok (.writeCell (.register 0) (.register 1)) :=
    fetch_of_image hmemory (a := 0) hpc (by decide) rfl rfl
  have hcompleted : m.step.2 = .completed := by
    rw [step_of_performs hrun hfetch (.writeCell haddress hvalue)]
  obtain ⟨m', hstep⟩ := step_result_eq_completed_iff.mp hcompleted
  obtain ⟨i, hi, hframe⟩ := step_frame hchannel hstep
  obtain rfl : i = .writeCell (.register 0) (.register 1) := Except.ok.inj (hi.symm.trans hfetch)
  obtain ⟨a, ha, hcell, hcells, -⟩ := hframe.memory
  have hsame : ((0 : Fin 32768).val : Int) = a.val := Except.ok.inj (haddress.symm.trans ha)
  obtain rfl : a = 0 := Fin.ext (Int.ofNat_inj.mp hsame.symm)
  have hnine : m'.memory.cell 0 = 9 := Except.ok.inj (hcell.symm.trans hvalue)
  rw [hstep]
  exact ⟨hchannel, rfl, hnine, hcells, fun j => hframe.registers j (by rintro ⟨⟩), hthird⟩

end Machine

end WordMachine
