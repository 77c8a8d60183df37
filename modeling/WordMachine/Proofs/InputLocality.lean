/-
  What a run has not read does not matter.

  `Machine.withInput` gives a machine other recorded input and leaves everything else as it is.  A
  step does the same on both machines when the inputs agree, up to multiples of the modulus, on the
  codes that have been read after it (`step_withInput`): a code is reduced to a word before it gets
  into a register.  Hence whole runs depend on nothing but the codes that they consume, and more
  input behind them can only keep a read from finding none (`input_locality`).
-/
import Mathlib.Data.Int.ModEq
import WordMachine.Proofs.Fetch
import WordMachine.Proofs.Runs

namespace WordMachine

/-! ### Other input -/

namespace Channel

/-- The device with other recorded input.  The position and the output stay, and a device that has
no recorded input stays as it is. -/
def withInput (input : Array Int) : Channel → Channel
  | buffer b => .buffer { b with input := input }
  | channel => channel

/-- The device **shares** what it has read with an input: all codes in front of its position are
there as well, up to multiples of the modulus. -/
def Shares (other : Array Int) : Channel → Prop
  | buffer b => b.position ≤ other.size ∧
      ∀ i < b.position, other.getD i 0 ≡ b.input.getD i 0 [ZMOD 32768]
  | _ => True

variable {c : Channel} {other : Array Int}

@[simp] theorem prepare_withInput (c : Channel) (other : Array Int) :
    (c.withInput other).prepare = c.prepare.withInput other := by
  cases c <;> rfl

@[simp] theorem emit_withInput (c : Channel) (other : Array Int) (code : Int) :
    (c.withInput other).emit code = (c.emit code).withInput other := by
  cases c <;> rfl

@[simp] theorem advance_withInput (c : Channel) (other : Array Int) :
    (c.withInput other).advance = c.advance.withInput other := by
  cases c <;> rfl

@[simp] theorem accepts_withInput (c : Channel) (other : Array Int) (code : Int) :
    (c.withInput other).accepts code = c.accepts code := by
  cases c <;> rfl

/-- A device that does not read fails in the same way with other input. -/
theorem next?_withInput_of_error {e : ChannelError} (h : c.next? = .error e) :
    (c.withInput other).next? = .error e := by
  cases c with
  | buffer b => cases h
  | console c => exact h
  | detached => exact h

/-- **A shared code is the same word**: it is there in the other input, and a read reduces both
codes to one word. -/
theorem next?_withInput_of_shares {code : Int} (h : c.next? = .ok (some code))
    (hshares : c.advance.Shares other) : ∃ code', (c.withInput other).next? = .ok (some code') ∧
      Word.reduce code' = Word.reduce code := by
  cases c with
  | buffer b =>
    obtain ⟨hsize, hcodes⟩ := hshares
    have hlt : b.position < other.size := hsize
    have hcode : b.input[b.position]? = some code := Except.ok.inj h
    have hmod := hcodes b.position (Nat.lt_succ_self _)
    rw [Array.getD_eq_getD_getElem?, Array.getD_eq_getD_getElem?,
      show b.advance.input[b.position]? = some code from hcode,
      Array.getElem?_eq_getElem hlt] at hmod
    refine ⟨other[b.position], ?_, hmod⟩
    exact congrArg Except.ok (Array.getElem?_eq_getElem hlt)
  | console c => exact ⟨code, h, rfl⟩
  | detached => cases h

/-! What has been read stays read, whatever the device does next. -/

theorem shares_of_prepare (h : c.prepare.Shares other) : c.Shares other := by
  cases c <;> exact h

theorem shares_of_emit {code : Int} (h : (c.emit code).Shares other) : c.Shares other := by
  cases c <;> exact h

theorem shares_of_advance (h : c.advance.Shares other) : c.Shares other := by
  cases c with
  | buffer b =>
    obtain ⟨hsize, hcodes⟩ := h
    have hstep : b.position < b.advance.position := Nat.lt_succ_self _
    exact ⟨by omega, fun i hi => hcodes i (by omega)⟩
  | console c => exact h
  | detached => exact h

/-- The device **draws** codes from an input and has not read behind its end. -/
def Draws (input : Array Int) (c : Channel) : Prop :=
  ∃ p output, c = .buffer ⟨input, p, output⟩ ∧ p ≤ input.size

end Channel

namespace Machine

/-- The machine with other recorded input. -/
def withInput (m : Machine) (input : Array Int) : Machine :=
  { m with channel := m.channel.withInput input }

variable {m : Machine} {other : Array Int}

/-! ### Steps -/

theorem prepare_withInput (m : Machine) (other : Array Int) (i : Instruction) :
    (m.withInput other).prepare i = (m.prepare i).withInput other := by
  unfold prepare withInput
  dsimp only
  split
  · rw [Channel.prepare_withInput]
  · rfl

theorem fail_withInput (m : Machine) (other : Array Int) (e : StepError) :
    (m.withInput other).fail e = (m.fail e).withInput other := by
  cases e <;> rfl

theorem complete_withInput (m : Machine) (other : Array Int) (e : Effect) :
    (m.withInput other).complete e = (m.complete e).withInput other := by
  cases e with
  | emit code => simp [complete, apply, withInput]
  | consume i x => simp [complete, apply, withInput]
  | _ => rfl

/-- All instructions but one are checked without a look at the input. -/
theorem effect_withInput {i : Instruction} (hi : i.opcode ≠ .input) :
    (m.withInput other).effect i = m.effect i := by
  cases i with
  | input target => exact absurd rfl hi
  | output source =>
    simp only [effect, withInput, Channel.accepts_withInput]
    rfl
  | _ => rfl

/-- A read is checked in the same way, unless the input has come to its end. -/
theorem effect_input_withInput_of_error {target : Operand} {e : StepError}
    (h : m.effect (.input target) = .error e) (hne : e ≠ m.blame .inputExhausted) :
    (m.withInput other).effect (.input target) = .error e := by
  simp only [effect, Check.bind_eq_error_iff] at h ⊢
  rcases h with h | ⟨i, hi, h | ⟨next, -, h⟩⟩
  · exact .inl h
  · refine .inr ⟨i, hi, .inl ?_⟩
    obtain ⟨e', he, hchannel⟩ := Check.mapError_eq_error_iff.mp h
    exact Check.mapError_eq_error_iff.mpr ⟨e', Channel.next?_withInput_of_error he, hchannel⟩
  · cases next with
    | none =>
      cases h
      exact absurd rfl hne
    | some code => cases h

/-- **An instruction follows the same rule** and has the same effect when the inputs share the codes
that have been read behind it. -/
theorem Performs.withInput {i : Instruction} {e : Effect} (h : m.Performs i e)
    (hshares : (m.complete e).channel.Shares other) : (m.withInput other).Performs i e := by
  by_cases hinput : i.opcode = .input
  · cases i <;> cases hinput
    cases h with
    | combine hf => cases hf
    | input hi hcode =>
      obtain ⟨code', hcode', hword⟩ := Channel.next?_withInput_of_shares hcode hshares
      rw [← hword]
      exact .input hi hcode'
  · rw [← effect_eq_ok_iff, effect_withInput hinput]
    exact effect_eq_ok_of_performs h

/-- **A step does not see other input** than the codes that have been read behind it, unless it
looks for one at the end. -/
theorem step_withInput (hshares : m.step.1.channel.Shares other)
    (hne : m.step.2 ≠ .failed (m.blame .inputExhausted)) :
    (m.withInput other).step = (m.step.1.withInput other, m.step.2) := by
  have hprepare := m.prepare_withInput other
  rcases m.step_cases with
    ⟨hnot, hs⟩ | ⟨fault, hrun, hf, hs⟩ | ⟨i, e, hrun, hi, he, hs⟩ | ⟨i, e, hrun, hi, he, hs⟩
  all_goals rw [hs] at hshares hne ⊢
  · exact step_of_not_running hnot
  · have hfails := step_of_fetch_eq_error (m := m.withInput other) hrun hf
    rw [fail_withInput] at hfails
    exact hfails
  · have he' : ((m.withInput other).prepare i).effect i = .error e := by
      rw [hprepare]
      by_cases hinput : i.opcode = .input
      · cases i <;> cases hinput
        apply effect_input_withInput_of_error he
        rintro rfl
        exact hne rfl
      · rw [effect_withInput hinput, he]
    have hfails := step_of_effect_eq_error (m := m.withInput other) hrun hi he'
    rw [hprepare, fail_withInput] at hfails
    exact hfails
  · have he' : ((m.withInput other).prepare i).Performs i e := by
      rw [hprepare]
      exact he.withInput hshares
    have hcompletes := step_of_performs (m := m.withInput other) hrun hi he'
    rw [hprepare, complete_withInput] at hcompletes
    exact hcompletes

/-- A step takes no code back. -/
theorem shares_of_step (h : m.step.1.channel.Shares other) : m.channel.Shares other := by
  rcases m.channel_step with hc | hc | ⟨source, code, -, -, hc⟩ | ⟨_, code, -, -, -, hc⟩
  all_goals rw [hc] at h
  · exact h
  · exact Channel.shares_of_prepare h
  · exact Channel.shares_of_emit h
  · exact Channel.shares_of_prepare (Channel.shares_of_advance h)

/-- A step keeps the input, and reads no further than its end. -/
theorem draws_step {input : Array Int} (h : m.channel.Draws input) :
    m.step.1.channel.Draws input := by
  obtain ⟨p, output, hchannel, hp⟩ := h
  rcases m.channel_step with hc | hc | ⟨source, code, -, -, hc⟩ | ⟨_, code, -, -, hcode, hc⟩
  all_goals rw [hchannel] at hc
  · exact ⟨p, output, hc, hp⟩
  · exact ⟨p, output, hc, hp⟩
  · exact ⟨p, output.push code, hc, hp⟩
  · rw [hchannel] at hcode
    have hlast : input[p]? = some code := Except.ok.inj hcode
    obtain ⟨hlt, -⟩ := Array.getElem?_eq_some_iff.mp hlast
    exact ⟨p + 1, output, hc, hlt⟩

/-! ### Runs -/

/-- **A sequence of steps does not see other input** than the codes that have been read behind it,
unless one of the steps looks for a code at the end. -/
theorem after_withInput {n : Nat} (hshares : (m.after n).channel.Shares other)
    (hne : ∀ k < n, (m.after k).step.2 ≠ .failed ((m.after k).blame .inputExhausted)) :
    (∀ k < n, ((m.withInput other).after k).step.2 = (m.after k).step.2) ∧
      (m.withInput other).after n = (m.after n).withInput other := by
  induction n with
  | zero => exact ⟨fun k hk => absurd hk (Nat.not_lt_zero k), rfl⟩
  | succ n ih =>
    -- what the last step shares was shared in front of it
    obtain ⟨hresults, hmachine⟩ :=
      ih (shares_of_step hshares) fun k hk => hne k (Nat.lt_succ_of_lt hk)
    have hlast := step_withInput hshares (hne n (Nat.lt_succ_self n))
    rw [← hmachine] at hlast
    refine ⟨fun k hk => ?_, congrArg Prod.fst hlast⟩
    rcases Nat.lt_succ_iff_lt_or_eq.mp hk with hlt | rfl
    · exact hresults k hlt
    · rw [hlast]

/-- **A run depends on nothing but the input that it consumes.**  When a machine with recorded input
has made `n` steps, it has consumed the first `p` codes.  If these steps are completed, a machine
that differs only in having other input makes `n` completed steps as well, provided that its first
`p` codes are congruent to them modulo 32768, and both machines are the same then but for the input.
Codes that are appended to the input change nothing up to a step that looks for a code and finds
none. -/
theorem input_locality {b : Buffer} (hchannel : m.channel = .buffer b) (hposition : b.position = 0)
    (n : Nat) : ∃ p output, (m.after n).channel = .buffer ⟨b.input, p, output⟩ ∧
      p ≤ b.input.size ∧
      (m.Completes n → ∀ other : Array Int, p ≤ other.size →
        (∀ i < p, other.getD i 0 ≡ b.input.getD i 0 [ZMOD 32768]) →
        (m.withInput other).Completes n ∧
        (m.withInput other).after n = (m.after n).withInput other) ∧
      ∀ extra : Array Int,
        (∀ k < n, (m.after k).step.2 ≠ .failed ((m.after k).blame .inputExhausted)) →
        (∀ k < n, ((m.withInput (b.input ++ extra)).after k).step.2 = (m.after k).step.2) ∧
        (m.withInput (b.input ++ extra)).after n = (m.after n).withInput (b.input ++ extra) := by
  have hdraws : m.channel.Draws b.input := by
    refine ⟨0, b.output, ?_, Nat.zero_le _⟩
    rw [hchannel, ← hposition]
  obtain ⟨p, output, hafter, hp⟩ :=
    after_induction (P := fun m => m.channel.Draws b.input) (fun _ => draws_step) hdraws n
  refine ⟨p, output, hafter, hp, ?_, ?_⟩
  · intro hcompletes other hsize hcodes
    have hshares : (m.after n).channel.Shares other := by
      rw [hafter]
      exact ⟨hsize, hcodes⟩
    obtain ⟨hresults, hmachine⟩ := after_withInput hshares fun k hk => by
      rw [hcompletes k hk]
      simp
    exact ⟨fun k hk => (hresults k hk).trans (hcompletes k hk), hmachine⟩
  · intro extra hne
    apply after_withInput _ hne
    rw [hafter]
    refine ⟨?_, fun i hi => ?_⟩
    · show p ≤ (b.input ++ extra).size
      rw [Array.size_append]
      omega
    · have hlt : i < b.input.size := Nat.lt_of_lt_of_le hi hp
      rw [Array.getD_eq_getD_getElem?, Array.getD_eq_getD_getElem?,
        Array.getElem?_append_left hlt]

/-- A program that reads a character and writes it, with two inputs: the second one has a code that
is greater by the modulus and one more code behind it. -/
theorem input_locality_of_echo : ∃ first,
    Execution.start [20, 32768, 19, 32768, 0] (.buffer (.ofCodes [65])) .default [] = .ok first ∧
      (first.machine.after 2).channel = .buffer ⟨#[65], 1, #[65]⟩ ∧
      first.machine.Completes 2 ∧ (first.machine.withInput #[32833, 7]).Completes 2 ∧
      (first.machine.withInput #[32833, 7]).after 2 =
        (first.machine.after 2).withInput #[32833, 7] ∧
      (first.machine.withInput #[65, 7]).after 2 = (first.machine.after 2).withInput #[65, 7] := by
  have himage : Image.Loadable [20, 32768, 19, 32768, 0] := by decide
  obtain ⟨first, memory, hstart, hload, hfirst⟩ :=
    Execution.exists_start himage (.buffer (.ofCodes [65])) .default []
  have hmemory : (Memory.zero 32768).load [20, 32768, 19, 32768, 0] = .ok first.machine.memory := by
    rw [hfirst]
    exact hload
  have hchannel : first.machine.channel = .buffer (.ofCodes [65]) := by
    rw [hfirst]
    rfl
  have hrun : first.machine.status = .running := by
    rw [hfirst]
    rfl
  have hpc : first.machine.pc = 0 := by
    rw [hfirst]
    rfl
  refine ⟨first, hstart, ?_⟩
  generalize first.machine = m at hmemory hchannel hrun hpc
  -- the first step reads the character, the second one writes it
  have hread : m.step =
      ((m.prepare (.input (.register 0))).complete (.consume 0 65), .completed) := by
    have hfetch : m.fetch = .ok (.input (.register 0)) :=
      fetch_of_image hmemory (a := 0) hpc (by decide) rfl rfl
    have hcode : (m.prepare (.input (.register 0))).channel.next? = .ok (some 65) := by
      rw [channel_prepare_eq, hchannel]
      rfl
    exact step_of_performs hrun hfetch (.input rfl hcode)
  have hwrite : (m.after 1).step =
      (((m.after 1).prepare (.output (.register 0))).complete (.emit 65), .completed) := by
    rw [after_succ, after_zero, hread]
    have hpc' : ((m.prepare (.input (.register 0))).complete (.consume 0 65)).pc = (2 : Nat) := by
      show m.pc + 2 = 2
      rw [hpc]
      rfl
    have hfetch := fetch_of_image (m := (m.prepare (.input (.register 0))).complete (.consume 0 65))
      (i := .output (.register 0)) hmemory hpc' (by decide) rfl rfl
    have haccepts : m.channel.prepare.advance.accepts 65 = .ok () := by
      rw [hchannel]
      rfl
    have hvalue : (Operand.register 0).resolve (m.registers.set 0 65) = .ok 65 :=
      congrArg Except.ok (m.registers.get_set_self 0 65)
    exact step_of_performs hrun hfetch (.output hvalue haccepts)
  have hcompletes : m.Completes 2 := by
    intro k hk
    obtain rfl | rfl : k = 0 ∨ k = 1 := by omega
    · rw [after_zero, hread]
    · rw [hwrite]
  have hlast : (m.after 2).channel = .buffer ⟨#[65], 1, #[65]⟩ := by
    rw [after_succ, hwrite, after_succ, after_zero, hread]
    show m.channel.prepare.advance.emit 65 = _
    rw [hchannel]
    rfl
  obtain ⟨p, output, hafter, -, hother, hextra⟩ := input_locality hchannel rfl 2
  obtain ⟨rfl, rfl⟩ : p = 1 ∧ output = #[65] := by
    rw [hlast] at hafter
    cases hafter
    exact ⟨rfl, rfl⟩
  obtain ⟨hcompletes', hsame⟩ := hother hcompletes #[32833, 7] (by decide) (by decide)
  obtain ⟨-, hmore⟩ := hextra #[7] fun k hk => by
    rw [hcompletes k hk]
    simp
  exact ⟨hlast, hcompletes, hcompletes', hsame, hmore⟩

end Machine

end WordMachine
