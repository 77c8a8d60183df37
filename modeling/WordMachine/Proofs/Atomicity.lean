/-
  A failed step changes nothing.

  Two machines agree when they have the same registers, stack, memory, program counter and number
  of executed instructions, and devices with the same input and output; what they may differ in are
  the status, the address of the next instruction, and the flushes of a terminal.  A machine agrees
  with itself after a failed step (`agrees_step_of_failed`), for all integers that a host program
  may have put into it.  Since the result of a step is the same on machines that agree
  (`Agrees.step_result`), an error that is not a fault comes back however often the step is
  repeated.
-/
import WordMachine.Proofs.Fetch
import WordMachine.Proofs.Runs

namespace WordMachine

/-! ### Devices that agree -/

namespace Console

/-- The codes of the characters that have been written. -/
def written (c : Console) : List Nat :=
  c.events.toList.filterMap fun
    | .write point => some point
    | .flush => none

theorem written_flush (c : Console) : c.flush.written = c.written := by
  simp [written, flush, record]

/-- The text on a terminal does not depend on when it has been made visible. -/
theorem text_eq (c : Console) : c.text = String.ofList (c.written.map Char.ofNat) := by
  rw [text, textSince, written, List.drop_zero, List.map_filterMap]
  congr 2
  funext event
  cases event <;> rfl

end Console

namespace Channel

/-- Two devices **agree** when they have the same input and the same output; a terminal may have
been flushed in the meantime. -/
inductive Agrees : Channel → Channel → Prop
  | buffer (b : Buffer) : Agrees (.buffer b) (.buffer b)
  | console {c c' : Console} (hinput : c'.input = c.input) (hending : c'.ending = c.ending)
    (hwritten : c'.written = c.written) : Agrees (.console c) (.console c')
  | detached : Agrees .detached .detached

variable {c c' c'' : Channel}

theorem Agrees.refl (c : Channel) : c.Agrees c := by
  cases c with
  | buffer b => exact .buffer b
  | console c => exact .console rfl rfl rfl
  | detached => exact .detached

theorem Agrees.trans (h : c.Agrees c') (h' : c'.Agrees c'') : c.Agrees c'' := by
  cases h with
  | buffer b => exact h'
  | console hinput hending hwritten =>
    cases h' with
    | console hinput' hending' hwritten' =>
      exact .console (hinput'.trans hinput) (hending'.trans hending) (hwritten'.trans hwritten)
  | detached => exact h'

/-- A device agrees with itself after the preparation of a read. -/
theorem agrees_prepare (c : Channel) : c.Agrees c.prepare := by
  cases c with
  | buffer b => exact .buffer b
  | console c => exact .console rfl rfl c.written_flush
  | detached => exact .detached

theorem Agrees.prepare (h : c.Agrees c') : c.prepare.Agrees c'.prepare := by
  cases h with
  | buffer b => exact .buffer b
  | @console c c' hinput hending hwritten =>
    exact .console hinput hending (by rw [c.written_flush, c'.written_flush, hwritten])
  | detached => exact .detached

theorem Agrees.accepts (h : c.Agrees c') (code : Int) : c'.accepts code = c.accepts code := by
  cases h <;> rfl

theorem Agrees.next? (h : c.Agrees c') : c'.next? = c.next? := by
  cases h with
  | buffer b => rfl
  | console hinput hending => simp only [Channel.next?, Console.next?, hinput, hending]
  | detached => rfl

end Channel

/-! ### Machines that agree -/

namespace Machine

/-- Two machines **agree** when they differ at most in their status, in the address of the next
instruction, and in the flushes of their terminals. -/
structure Agrees (m m' : Machine) : Prop where
  /-- The registers are the same. -/
  registers : m'.registers = m.registers
  /-- The stack is the same. -/
  stack : m'.stack = m.stack
  /-- All cells are the same, and so is the size of the image. -/
  memory : m'.memory = m.memory
  /-- The devices agree. -/
  channel : m.channel.Agrees m'.channel
  /-- The program counter is the same. -/
  pc : m'.pc = m.pc
  /-- The number of executed instructions is the same. -/
  steps : m'.steps = m.steps

variable {m m' m'' : Machine}

theorem Agrees.refl (m : Machine) : m.Agrees m := ⟨rfl, rfl, rfl, .refl _, rfl, rfl⟩

theorem Agrees.trans (h : m.Agrees m') (h' : m'.Agrees m'') : m.Agrees m'' where
  registers := h'.registers.trans h.registers
  stack := h'.stack.trans h.stack
  memory := h'.memory.trans h.memory
  channel := h.channel.trans h'.channel
  pc := h'.pc.trans h.pc
  steps := h'.steps.trans h.steps

theorem agrees_fail (m : Machine) (e : StepError) : m.Agrees (m.fail e) where
  registers := registers_fail m e
  stack := stack_fail m e
  memory := memory_fail m e
  channel := by
    rw [channel_fail]
    exact .refl _
  pc := pc_fail m e
  steps := steps_fail m e

theorem agrees_prepare (m : Machine) (i : Instruction) : m.Agrees (m.prepare i) where
  registers := rfl
  stack := rfl
  memory := rfl
  channel := by
    rcases m.channel_prepare i with h | h
    · rw [h]
      exact .refl _
    · rw [h]
      exact m.channel.agrees_prepare
  pc := rfl
  steps := rfl

/-- **A failed step changes nothing**: the machine agrees with the one before the step. -/
theorem agrees_step_of_failed {e : StepError} (h : m.step.2 = .failed e) : m.Agrees m.step.1 := by
  obtain ⟨-, ⟨fault, -, -, hm⟩ | ⟨i, -, -, hm⟩⟩ := step_failed h
  · rw [hm]
    exact m.agrees_fail e
  · rw [hm]
    exact (m.agrees_prepare i).trans ((m.prepare i).agrees_fail e)

/-- A fault names the address of its instruction. -/
theorem pc_of_fault {report : FaultReport} (h : m.step.2 = .failed (.fault report)) :
    report.pc = m.pc := by
  obtain ⟨-, ⟨fault, -, he, -⟩ | ⟨i, -, he, -⟩⟩ := step_failed h
  · cases he
    rfl
  · generalize hready : StepError.fault report = e at he
    cases refuses_of_effect_eq_error he with
    | fault _ hfault =>
      cases hready
      rfl
    | exhausted =>
      cases hready
      rfl
    | _ => cases hready

theorem Agrees.fetch (h : m.Agrees m') : m'.fetch = m.fetch := by
  unfold Machine.fetch
  rw [h.memory, h.pc]

theorem Agrees.prepare (h : m.Agrees m') (i : Instruction) :
    (m.prepare i).Agrees (m'.prepare i) where
  registers := h.registers
  stack := h.stack
  memory := h.memory
  channel := by
    rw [channel_prepare_eq, channel_prepare_eq]
    split
    · exact h.channel.prepare
    · exact h.channel
  pc := h.pc
  steps := h.steps

/-- The checks of an instruction do not see what machines that agree may differ in. -/
theorem Agrees.effect (h : m.Agrees m') (hnext : m'.nextPc = m.nextPc) (i : Instruction) :
    m'.effect i = m.effect i := by
  obtain ⟨registers, stack, memory, channel, pc, nextPc, status, steps⟩ := m
  obtain ⟨registers', stack', memory', channel', pc', nextPc', status', steps'⟩ := m'
  obtain ⟨rfl, rfl, rfl, hchannel, rfl, rfl⟩ := h
  obtain rfl : nextPc' = nextPc := hnext
  -- only two instructions look at the device, and none at the status
  cases i with
  | output source =>
    simp only [Machine.effect, hchannel.accepts]
    rfl
  | input target =>
    simp only [Machine.effect, hchannel.next?]
    rfl
  | _ => rfl

/-- **Machines that agree do the same**: the result of a step is the same on both. -/
theorem Agrees.step_result (h : m.Agrees m') (hstatus : m'.status = m.status) :
    m'.step.2 = m.step.2 := by
  have hblame : ∀ fault, m'.blame fault = m.blame fault := fun fault => by rw [blame, h.pc, blame]
  have heffect : ∀ i, (m'.prepare i).effect i = (m.prepare i).effect i := fun i =>
    (h.prepare i).effect (congrArg (· + (i.width : Int)) h.pc) i
  rcases m.step_cases with
    ⟨hnot, hs⟩ | ⟨fault, hrun, hf, hs⟩ | ⟨i, e, hrun, hi, he, hs⟩ | ⟨i, e, hrun, hi, he, hs⟩
  · rw [hs, step_of_not_running (by rwa [hstatus])]
  · rw [hs, step_of_fetch_eq_error (hstatus.trans hrun) (h.fetch.trans hf), hblame]
  · rw [hs, step_of_effect_eq_error (hstatus.trans hrun) (h.fetch.trans hi)
      ((heffect i).trans he)]
  · have he' : (m'.prepare i).Performs i e := by
      rw [← effect_eq_ok_iff, heffect i]
      exact effect_eq_ok_of_performs he
    rw [hs, step_of_performs (hstatus.trans hrun) (h.fetch.trans hi) he']

end Machine

/-! ### Failed steps -/

namespace Monitor

end Monitor

end WordMachine
