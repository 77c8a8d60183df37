/-
  What a step can be.

  `Machine.Refuses` lists the errors that an instruction can end with
  (`refuses_of_effect_eq_error`).  Together with the rules this gives the four shapes of a step
  (`step_cases`) and the exact conditions under which a step is completed or fails
  (`step_eq_completed_iff`, `step_eq_failed_iff`).  Results about steps and runs start from these
  and never unfold `step` again.  What a step does to the device is said once as well
  (`moves_step`): it writes an operand, takes a code for a register, or moves nothing.
-/
import WordMachine.Proofs.Rules

namespace WordMachine

namespace Machine

/-! ### Errors -/

/-- `m.Refuses i e` says that the error `e` is one that the instruction `i` can end with on the
machine `m`: a fault of this instruction, a value that fits no cell, or an error of the device.  Only
a read finds the end of the input. -/
inductive Refuses (m : Machine) : Instruction → StepError → Prop
  | fault (i : Instruction) {fault : Fault} (hfault : fault ≠ .inputExhausted) :
      Refuses m i (m.blame fault)
  | overflow {address source : Operand} {x : Int}
      (hx : m.value source = .ok x) (hrange : x < 0 ∨ 65535 < x) :
      Refuses m (.writeCell address source) (.cellOverflow x)
  | output {source : Operand} {x : Int} {e : ChannelError}
      (hx : m.value source = .ok x) (hrejects : m.channel.accepts x = .error e) :
      Refuses m (.output source) (.channel e)
  | input {target : Operand} {e : ChannelError} (hcode : m.channel.next? = .error e) :
      Refuses m (.input target) (.channel e)
  | exhausted {target : Operand} (hregister : target.isRegister)
      (hcode : m.channel.next? = .ok none) : Refuses m (.input target) (m.blame .inputExhausted)

/-- `m.Blames x` says that the check `x` fails with faults of the current instruction only, none of
which is the end of the input. -/
def Blames (m : Machine) {α : Type} (x : Except StepError α) : Prop :=
  ∀ e, x = .error e → ∃ fault ≠ .inputExhausted, e = m.blame fault

section Blames

variable {m : Machine} {α β : Type}

theorem blames_pure (a : α) : m.Blames (pure a) := by
  intro e h
  cases h

theorem blames_throw {fault : Fault} (hfault : fault ≠ .inputExhausted) :
    m.Blames (throw (m.blame fault) : Except StepError α) := by
  intro e h
  cases h
  exact ⟨fault, hfault, rfl⟩

theorem blames_mapError {x : Except Fault α}
    (hx : ∀ fault, x = .error fault → fault ≠ .inputExhausted) : m.Blames (x.mapError m.blame) := by
  intro e h
  obtain ⟨fault, hfault, rfl⟩ := Check.mapError_eq_error_iff.mp h
  exact ⟨fault, hx fault hfault, rfl⟩

theorem Blames.bind {x : Except StepError α} {f : α → Except StepError β} (hx : m.Blames x)
    (hf : ∀ a, x = .ok a → m.Blames (f a)) : m.Blames (x >>= f) := by
  intro e h
  rcases Check.bind_eq_error_iff.mp h with h | ⟨a, ha, h⟩
  · exact hx e h
  · exact hf a ha e h

theorem blames_source (operand : Operand) : m.Blames (m.source operand) := by
  apply blames_mapError
  rintro _ h rfl
  cases operand <;> cases h

theorem blames_destination (operand : Operand) : m.Blames (m.destination operand) := by
  apply blames_mapError
  rintro _ h rfl
  cases operand <;> cases h

theorem blames_pop : m.Blames (m.stack.pop.mapError m.blame) := by
  apply blames_mapError
  rintro _ h rfl
  cases (Stack.pop_eq_error_iff.mp h).2

theorem blames_address (a : Int) : m.Blames ((Memory.checkAddress 32768 a).mapError m.blame) := by
  apply blames_mapError
  rintro _ h rfl
  cases (Memory.checkAddress_eq_error_iff.mp h).1

theorem blames_read (a : Int) : m.Blames ((m.memory.read a).mapError m.blame) := by
  apply blames_mapError
  rintro _ h rfl
  cases (Memory.read_eq_error_iff.mp h).1

theorem blames_combine (target left right : Operand) (f : Int → Int → Int) :
    m.Blames (m.combine target left right f) :=
  (blames_source left).bind fun _ _ => (blames_source right).bind fun _ _ =>
    (blames_destination target).bind fun _ _ => blames_pure _

/-- **Most instructions fail with faults only.**  The exceptions are the write of a cell and the two
instructions that use the device. -/
theorem blames_effect {i : Instruction} (hwrite : i.opcode ≠ .writeCell)
    (houtput : i.opcode ≠ .output) (hinput : i.opcode ≠ .input) : m.Blames (m.effect i) := by
  cases i with
  | halt => exact blames_pure _
  | noop => exact blames_pure _
  | set target source | not target source =>
    exact (blames_source source).bind fun _ _ =>
      (blames_destination target).bind fun _ _ => blames_pure _
  | push source | jump source => exact (blames_source source).bind fun _ _ => blames_pure _
  | pop target =>
    exact (blames_destination target).bind fun _ _ =>
      blames_pop.bind fun _ _ => blames_pure _
  | equal target left right | greater target left right | add target left right
  | multiply target left right | and target left right | or target left right =>
    exact blames_combine target left right _
  | jumpIf condition target | jumpUnless condition target =>
    refine (blames_source condition).bind fun x _ => ?_
    split
    · exact (blames_source target).bind fun _ _ => blames_pure _
    · exact blames_pure _
  | modulo target left right =>
    refine (blames_source right).bind fun y _ => ?_
    split
    · exact (blames_throw (by rintro ⟨⟩)).bind fun _ _ => blames_combine target left right _
    · exact blames_combine target left right _
  | readCell target address =>
    exact (blames_source address).bind fun a _ =>
      (blames_read a).bind fun _ _ =>
        (blames_destination target).bind fun _ _ => blames_pure _
  | call target =>
    exact (blames_source target).bind fun _ _ =>
      (blames_address m.nextPc).bind fun _ _ => blames_pure _
  | ret => exact blames_pop.bind fun _ _ => blames_pure _
  | writeCell | output | input => contradiction

end Blames

/-- An operand that is a destination is a register, so that an input instruction with it gets as far
as reading. -/
theorem readsInput_of_destination {target : Operand} {i : Fin 8}
    (hi : target.destination = .ok i) : (Instruction.input target).readsInput = true := by
  rw [Operand.eq_register_of_destination hi]
  rfl

/-- **What an instruction can fail with.**  In front of the error of a cell or of the device stand
checks that fail with faults. -/
theorem refuses_of_effect_eq_error {m : Machine} {i : Instruction} {e : StepError}
    (h : m.effect i = .error e) : m.Refuses i e := by
  have blamed : (∃ fault ≠ .inputExhausted, e = m.blame fault) → m.Refuses i e := by
    rintro ⟨fault, hfault, rfl⟩
    exact .fault i hfault
  -- each link of the chain may be the one that fails
  cases i with
  | writeCell address source =>
    simp only [effect, Check.bind_eq_error_iff] at h
    rcases h with h | ⟨a, -, h | ⟨x, hx, h | ⟨j, -, h | ⟨cell, -, h⟩⟩⟩⟩
    · exact blamed (blames_source address e h)
    · exact blamed (blames_source source e h)
    · exact blamed (blames_address a e h)
    · obtain ⟨y, hy, rfl⟩ := Check.mapError_eq_error_iff.mp h
      obtain ⟨rfl, hrange⟩ := Memory.toCell_eq_error_iff.mp hy
      exact .overflow (source_eq_ok_iff.mp hx) hrange
    · cases h
  | output source =>
    simp only [effect, Check.bind_eq_error_iff] at h
    rcases h with h | ⟨x, hx, h | ⟨_, -, h⟩⟩
    · exact blamed (blames_source source e h)
    · obtain ⟨e', he, rfl⟩ := Check.mapError_eq_error_iff.mp h
      exact .output (source_eq_ok_iff.mp hx) he
    · cases h
  | input target =>
    simp only [effect, Check.bind_eq_error_iff] at h
    rcases h with h | ⟨i, hi, h | ⟨next, hnext, h⟩⟩
    · exact blamed (blames_destination target e h)
    · obtain ⟨e', he, rfl⟩ := Check.mapError_eq_error_iff.mp h
      exact .input he
    · cases next with
      | none =>
        cases h
        have hregister := readsInput_of_destination (destination_eq_ok_iff.mp hi)
        exact .exhausted hregister (Check.mapError_eq_ok_iff.mp hnext)
      | some code => cases h
  | _ => exact blamed (blames_effect (by rintro ⟨⟩) (by rintro ⟨⟩) (by rintro ⟨⟩) e h)

/-! ### Steps -/

@[simp] theorem registers_prepare (m : Machine) (i : Instruction) :
    (m.prepare i).registers = m.registers := rfl

@[simp] theorem stack_prepare (m : Machine) (i : Instruction) : (m.prepare i).stack = m.stack := rfl

@[simp] theorem memory_prepare (m : Machine) (i : Instruction) :
    (m.prepare i).memory = m.memory := rfl

section Fields

variable (m : Machine) (effect : Effect) (e : StepError)

/-! A completed instruction leaves registers, stack, memory and device as its effect does; a failed
one changes nothing but the status. -/

@[simp] theorem registers_complete :
    (m.complete effect).registers = (m.apply effect).registers := by
  cases effect <;> rfl

@[simp] theorem stack_complete : (m.complete effect).stack = (m.apply effect).stack := by
  cases effect <;> rfl

@[simp] theorem memory_complete : (m.complete effect).memory = (m.apply effect).memory := by
  cases effect <;> rfl

@[simp] theorem channel_complete : (m.complete effect).channel = (m.apply effect).channel := by
  cases effect <;> rfl

theorem fail_eq : m.fail e = { m with status := (m.fail e).status } := by
  cases e <;> rfl

@[simp] theorem registers_fail : (m.fail e).registers = m.registers := by rw [fail_eq]

@[simp] theorem stack_fail : (m.fail e).stack = m.stack := by rw [fail_eq]

@[simp] theorem memory_fail : (m.fail e).memory = m.memory := by rw [fail_eq]

@[simp] theorem channel_fail : (m.fail e).channel = m.channel := by rw [fail_eq]

@[simp] theorem pc_fail : (m.fail e).pc = m.pc := by rw [fail_eq]

@[simp] theorem steps_fail : (m.fail e).steps = m.steps := by rw [fail_eq]

end Fields

theorem step_of_not_running {m : Machine} (h : m.status ≠ .running) : m.step = (m, .ignored) := by
  unfold step
  split
  · contradiction
  · rfl

theorem step_of_fetch_eq_error {m : Machine} {fault : Fault} (hrun : m.status = .running)
    (h : m.fetch = .error fault) : m.step = (m.fail (m.blame fault), .failed (m.blame fault)) := by
  simp only [step, hrun, h]

theorem step_of_effect_eq_error {m : Machine} {i : Instruction} {e : StepError}
    (hrun : m.status = .running) (hi : m.fetch = .ok i) (he : (m.prepare i).effect i = .error e) :
    m.step = ((m.prepare i).fail e, .failed e) := by
  simp only [step, hrun, hi, he]

theorem step_of_performs {m : Machine} {i : Instruction} {e : Effect} (hrun : m.status = .running)
    (hi : m.fetch = .ok i) (he : (m.prepare i).Performs i e) :
    m.step = ((m.prepare i).complete e, .completed) := by
  simp only [step, hrun, hi, effect_eq_ok_iff.mpr he]

/-- **What a step can be.**  A machine that is not running stays as it is; a running machine fetches
no instruction, fetches one that is refused, or fetches one that a rule allows. -/
theorem step_cases (m : Machine) :
    (m.status ≠ .running ∧ m.step = (m, .ignored)) ∨
    (∃ fault, m.status = .running ∧ m.fetch = .error fault ∧
      m.step = (m.fail (m.blame fault), .failed (m.blame fault))) ∨
    (∃ i e, m.status = .running ∧ m.fetch = .ok i ∧ (m.prepare i).effect i = .error e ∧
      m.step = ((m.prepare i).fail e, .failed e)) ∨
    ∃ i e, m.status = .running ∧ m.fetch = .ok i ∧ (m.prepare i).Performs i e ∧
      m.step = ((m.prepare i).complete e, .completed) := by
  by_cases hrun : m.status = .running
  · right
    cases hi : m.fetch with
    | error fault => exact .inl ⟨fault, hrun, rfl, step_of_fetch_eq_error hrun hi⟩
    | ok i =>
      right
      cases he : (m.prepare i).effect i with
      | error e => exact .inl ⟨i, e, hrun, rfl, he, step_of_effect_eq_error hrun hi he⟩
      | ok e =>
        have hp := effect_eq_ok_iff.mp he
        exact .inr ⟨i, e, hrun, rfl, hp, step_of_performs hrun hi hp⟩
  · exact .inl ⟨hrun, step_of_not_running hrun⟩

/-- **Completed steps**: an instruction is fetched, a rule allows it, and its effect is applied. -/
theorem step_eq_completed_iff {m m' : Machine} :
    m.step = (m', .completed) ↔ m.status = .running ∧ ∃ i e, m.fetch = .ok i ∧
      (m.prepare i).Performs i e ∧ m' = (m.prepare i).complete e := by
  constructor
  · intro h
    rcases m.step_cases with
      ⟨-, hs⟩ | ⟨_, -, -, hs⟩ | ⟨_, _, -, -, -, hs⟩ | ⟨i, e, hrun, hi, he, hs⟩
    all_goals rw [hs] at h; cases h
    exact ⟨hrun, i, e, hi, he, rfl⟩
  · rintro ⟨hrun, i, e, hi, he, rfl⟩
    exact step_of_performs hrun hi he

theorem step_result_eq_completed_iff {m : Machine} :
    m.step.2 = .completed ↔ ∃ m', m.step = (m', .completed) :=
  ⟨fun h => ⟨m.step.1, by rw [← h]⟩, fun ⟨m', h⟩ => by rw [h]⟩

/-- A running machine does not ignore a step. -/
theorem step_result_of_running {m : Machine} (hrun : m.status = .running) :
    m.step.2 = .completed ∨ ∃ e, m.step.2 = .failed e := by
  rcases m.step_cases with ⟨hnot, -⟩ | ⟨_, -, -, hs⟩ | ⟨_, _, -, -, -, hs⟩ | ⟨_, _, -, -, -, hs⟩
  · exact absurd hrun hnot
  · exact .inr ⟨_, by rw [hs]⟩
  · exact .inr ⟨_, by rw [hs]⟩
  · exact .inl (by rw [hs])

theorem completed_of_running {m : Machine} (hrun : m.status = .running)
    (h : ∀ e, m.step.2 ≠ .failed e) : m.step.2 = .completed :=
  (step_result_of_running hrun).resolve_right fun ⟨e, he⟩ => h e he

/-- **Failed steps**: no instruction is fetched, or the instruction does not pass its checks. -/
theorem step_eq_failed_iff {m m' : Machine} {e : StepError} :
    m.step = (m', .failed e) ↔ m.status = .running ∧
      ((∃ fault, m.fetch = .error fault ∧ e = m.blame fault ∧ m' = m.fail e) ∨
        ∃ i, m.fetch = .ok i ∧ (m.prepare i).effect i = .error e ∧ m' = (m.prepare i).fail e) := by
  constructor
  · intro h
    rcases m.step_cases with
      ⟨-, hs⟩ | ⟨fault, hrun, hf, hs⟩ | ⟨i, e', hrun, hi, he, hs⟩ | ⟨_, _, -, -, -, hs⟩
    all_goals rw [hs] at h; cases h
    · exact ⟨hrun, .inl ⟨fault, hf, rfl, rfl⟩⟩
    · exact ⟨hrun, .inr ⟨i, hi, he, rfl⟩⟩
  · rintro ⟨hrun, ⟨fault, hf, rfl, rfl⟩ | ⟨i, hi, he, rfl⟩⟩
    · exact step_of_fetch_eq_error hrun hf
    · exact step_of_effect_eq_error hrun hi he

/-- The same for the result of a step alone. -/
theorem step_failed {m : Machine} {e : StepError} (h : m.step.2 = .failed e) :
    m.status = .running ∧
      ((∃ fault, m.fetch = .error fault ∧ e = m.blame fault ∧ m.step.1 = m.fail e) ∨
        ∃ i, m.fetch = .ok i ∧ (m.prepare i).effect i = .error e ∧
          m.step.1 = (m.prepare i).fail e) :=
  step_eq_failed_iff.mp (by rw [← h])

/-! ### The status -/

/-- After a completed step the machine is running or has halted. -/
theorem status_step_of_completed {m : Machine} (h : m.step.2 = .completed) :
    m.step.1.status = .running ∨ m.step.1.status = .halted := by
  obtain ⟨m', hs⟩ := step_result_eq_completed_iff.mp h
  obtain ⟨hrun, i, e, -, -, rfl⟩ := step_eq_completed_iff.mp hs
  rw [hs]
  cases e with
  | halt => exact .inr rfl
  | _ => exact .inl hrun

/-- A completed step is counted. -/
theorem steps_step_of_completed {m : Machine} (h : m.step.2 = .completed) :
    m.step.1.steps = m.steps + 1 := by
  obtain ⟨m', hs⟩ := step_result_eq_completed_iff.mp h
  obtain ⟨-, i, e, -, -, rfl⟩ := step_eq_completed_iff.mp hs
  rw [hs]
  cases e <;> rfl

/-- A fault stops the machine. -/
theorem status_step_of_fault {m : Machine} {report : FaultReport}
    (h : m.step.2 = .failed (.fault report)) : m.step.1.status = .faulted report := by
  obtain ⟨-, ⟨fault, -, -, hm⟩ | ⟨i, -, -, hm⟩⟩ := step_failed h
  · rw [hm]
    rfl
  · rw [hm]
    rfl

/-! ### The device -/

/-- Only an instruction that gets as far as reading prepares the device. -/
theorem channel_prepare_eq (m : Machine) (i : Instruction) :
    (m.prepare i).channel = if i.readsInput then m.channel.prepare else m.channel := rfl

theorem channel_prepare_input (m : Machine) {target : Operand} (h : target.isRegister) :
    (m.prepare (.input target)).channel = m.channel.prepare := if_pos h

theorem channel_prepare (m : Machine) (i : Instruction) :
    (m.prepare i).channel = m.channel ∨ (m.prepare i).channel = m.channel.prepare := by
  rw [channel_prepare_eq]
  split
  · exact .inr rfl
  · exact .inl rfl

theorem channel_prepare_buffer {m : Machine} {b : Buffer} (hchannel : m.channel = .buffer b)
    (i : Instruction) : (m.prepare i).channel = .buffer b := by
  rcases m.channel_prepare i with h | h
  · rw [h, hchannel]
  · rw [h, hchannel]
    rfl

/-- Does the next step complete an instruction with this operation? -/
def executes (m : Machine) (op : Opcode) : Bool :=
  match m.step.2, m.fetch with
  | .completed, .ok i => i.opcode = op
  | _, _ => false

/-- How the next step of the machine `m` moves codes. -/
inductive Moves (m : Machine) : Prop
  /-- An output instruction writes its operand. -/
  | write {source : Operand} {code : Int} (hdone : m.step.2 = .completed)
    (hi : m.fetch = .ok (.output source)) (hcode : m.value source = .ok code)
    (hchannel : m.step.1.channel = m.channel.emit code)
  /-- An input instruction takes a code and puts its word into a register. -/
  | read {target : Operand} {code : Int} (hdone : m.step.2 = .completed)
    (hi : m.fetch = .ok (.input target)) (hregister : target.isRegister)
    (hcode : m.channel.prepare.next? = .ok (some code))
    (hstored : m.step.1.value target = .ok (Word.reduce code))
    (hchannel : m.step.1.channel = m.channel.prepare.advance)
  /-- Where neither of them is completed, nothing moves. -/
  | rest (hout : m.executes .output = false) (hin : m.executes .input = false)
    (hchannel : m.step.1.channel = m.channel ∨ m.step.1.channel = m.channel.prepare)

theorem executes_of_completed {m : Machine} {i : Instruction} (hdone : m.step.2 = .completed)
    (hi : m.fetch = .ok i) (op : Opcode) : m.executes op = decide (i.opcode = op) := by
  simp only [executes, hdone, hi]

theorem executes_of_ne_completed {m : Machine} (h : m.step.2 ≠ .completed) (op : Opcode) :
    m.executes op = false := by
  unfold executes
  split
  · contradiction
  · rfl

/-- **Every step moves codes by one of these rules**, on any device. -/
theorem moves_step (m : Machine) : m.Moves := by
  have hrest : m.step.2 ≠ .completed →
      (m.step.1.channel = m.channel ∨ m.step.1.channel = m.channel.prepare) → m.Moves := by
    intro hnot hchannel
    exact .rest (executes_of_ne_completed hnot _) (executes_of_ne_completed hnot _) hchannel
  rcases m.step_cases with ⟨-, hs⟩ | ⟨_, -, -, hs⟩ | ⟨i, _, -, -, -, hs⟩ | ⟨i, e, -, hi, he, hs⟩
  · apply hrest
    · simp [hs]
    · simp [hs]
  · apply hrest
    · simp [hs]
    · simp [hs]
  · apply hrest
    · simp [hs]
    · simpa [hs] using m.channel_prepare i
  · have hdone : m.step.2 = .completed := by rw [hs]
    have hexecutes := executes_of_completed hdone hi
    have hchannel : m.step.1.channel = ((m.prepare i).apply e).channel := by
      rw [hs, channel_complete]
    have hkept : m.step.1.channel = (m.prepare i).channel →
        m.step.1.channel = m.channel ∨ m.step.1.channel = m.channel.prepare := by
      intro h
      rw [h]
      exact m.channel_prepare i
    cases he with
    | @output source code hcode => exact .write hdone hi hcode hchannel
    | @input target r code hr hcode =>
      have hregister : target.isRegister := readsInput_of_destination hr
      have hready := m.channel_prepare_input hregister
      rw [hready] at hcode
      refine .read hdone hi hregister hcode ?_ ?_
      · rw [Operand.eq_register_of_destination hr, hs]
        show Except.ok (((m.prepare _).registers.set r _).get r) = _
        rw [Registers.get_set_self]
      · rw [hchannel, apply, hready]
    | combine hf => cases hf <;> exact .rest (hexecutes _) (hexecutes _) (hkept hchannel)
    | _ => exact .rest (hexecutes _) (hexecutes _) (hkept hchannel)

/-- **What a step does to the device**: nothing, a preparation only, the write of one resolved
operand, or a preparation and the reading of one code. -/
theorem channel_step (m : Machine) :
    m.step.1.channel = m.channel ∨ m.step.1.channel = m.channel.prepare ∨
    (∃ source code, m.fetch = .ok (.output source) ∧ m.value source = .ok code ∧
      m.step.1.channel = m.channel.emit code) ∨
    ∃ target code, m.fetch = .ok (.input target) ∧ target.isRegister ∧
      m.channel.prepare.next? = .ok (some code) ∧
      m.step.1.channel = m.channel.prepare.advance := by
  cases m.moves_step with
  | write hdone hi hcode hchannel => exact .inr (.inr (.inl ⟨_, _, hi, hcode, hchannel⟩))
  | read hdone hi hregister hcode hstored hchannel =>
    exact .inr (.inr (.inr ⟨_, _, hi, hregister, hcode, hchannel⟩))
  | rest hout hin hchannel => exact hchannel.imp_right .inl

end Machine

end WordMachine
