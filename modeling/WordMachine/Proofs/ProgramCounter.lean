/-
  Where the program counter of a running machine is.

  On a machine that holds words, a step leaves the program counter where it is, moves it to a word,
  or moves it from an instruction that ends in the last cell of the memory to the address behind
  that cell (`pc_step`).  Addresses are checked when something is read from them, so the last one of
  these steps is completed, and only the next one fails (`RunsOff.step_step`).  Hence the program
  counter of a running machine is a word or has just left the memory (`pc_after`,
  `Monitor.session_pc`).
-/
import WordMachine.Proofs.Atomicity
import WordMachine.Proofs.WordClosure

namespace WordMachine

namespace Machine

variable {m : Machine}

/-! ### One step -/

/-- A machine **runs off** the memory when it completes an instruction whose last word is the last
cell, and goes on behind it. -/
structure RunsOff (m : Machine) : Prop where
  /-- The step is completed. -/
  completed : m.step.2 = .completed
  /-- The instruction ends in the last cell. -/
  instruction : ∃ i, m.fetch = .ok i ∧ m.pc + i.width = 32768
  /-- The machine goes on behind the last cell. -/
  pc_step : m.step.1.pc = 32768

/-- An instruction that is fetched ends inside of the memory. -/
theorem width_le_of_fetch {i : Instruction} (h : m.fetch = .ok i) : m.pc + i.width ≤ 32768 := by
  have hwidth : i.width = 1 + i.opcode.arity := rfl
  obtain ⟨hcode, words, hlength, -, hreads⟩ := fetch_eq_ok_iff.mp h
  by_cases hnone : i.opcode.arity = 0
  · obtain ⟨a, ha, -⟩ := Memory.read_eq_ok_iff.mp hcode
    have hlt := a.isLt
    omega
  · obtain ⟨a, ha, -⟩ := Memory.read_eq_ok_iff.mp (hreads (i.opcode.arity - 1) (by omega))
    have hlt := a.isLt
    omega

/-- **How a step moves the program counter.** -/
theorem pc_step (h : m.HoldsWords) :
    m.step.1.pc = m.pc ∨ Word.IsWord m.step.1.pc ∨ m.RunsOff := by
  rcases m.step_cases with ⟨-, hs⟩ | ⟨fault, -, -, hs⟩ | ⟨i, e, -, -, -, hs⟩ | ⟨i, e, -, hi, he, hs⟩
  · rw [hs]
    exact .inl rfl
  · rw [hs]
    exact .inl (pc_fail m _)
  · rw [hs]
    exact .inl (pc_fail (m.prepare i) e)
  · have hcarries := (holdsWords_iff.mp (h.prepare i)).carries Word.isWord_stable he
    rcases pc_complete hcarries with hpc | hpc | hpc
    · rw [hs]
      exact .inl hpc
    · -- behind the instruction there is a word, unless the instruction ends in the last cell
      right
      have hle := width_le_of_fetch hi
      have hlower := (pc_isWord_of_fetch hi).1
      by_cases hlast : m.pc + i.width = 32768
      · right
        refine ⟨by rw [hs], ⟨i, hi, hlast⟩, ?_⟩
        rw [hs]
        exact hpc.trans hlast
      · left
        rw [hs]
        show Word.IsWord ((m.prepare i).complete e).pc
        rw [hpc]
        constructor <;> omega
    · rw [hs]
      exact .inr (.inl hpc)

/-- Nothing is executed behind the last cell. -/
theorem step_of_pc_eq (hrun : m.status = .running) (hpc : m.pc = 32768) :
    m.step.2 = .failed (.fault ⟨.addressOutOfRange 32768, 32768⟩) := by
  have hfetch : m.fetch = .error (.addressOutOfRange 32768) := by
    have houtside := fetch_of_outside (m := m) (.inr (Int.le_of_eq hpc.symm))
    rwa [hpc] at houtside
  rw [step_of_fetch_eq_error hrun hfetch, blame, hpc]

/-- A machine that has run off the memory and goes on faults in its next step. -/
theorem RunsOff.step_step (h : m.RunsOff) (hrun : m.step.1.status = .running) :
    m.step.1.step.2 = .failed (.fault ⟨.addressOutOfRange 32768, 32768⟩) :=
  step_of_pc_eq hrun h.pc_step

/-! ### Any number of steps -/

/-- A machine that is running has been running before. -/
theorem running_of_running_step (h : m.step.1.status = .running) : m.status = .running := by
  by_contra hstopped
  rw [step_of_not_running hstopped] at h
  exact hstopped h

/-- **The program counter of a running machine** is a word, unless the last step has run off the
memory. -/
theorem pc_after (h : m.HoldsWords) (hpc : Word.IsWord m.pc) {n : Nat}
    (hrun : (m.after n).status = .running) :
    Word.IsWord (m.after n).pc ∨ ∃ k, n = k + 1 ∧ (m.after k).RunsOff := by
  induction n with
  | zero => exact .inl hpc
  | succ n ih =>
    have hbefore := running_of_running_step hrun
    rcases ih hbefore with hword | ⟨k, rfl, hoff⟩
    · have hwords : (m.after n).HoldsWords := after_induction (fun _ => step_holdsWords) h n
      rw [after_succ]
      rcases pc_step hwords with hsame | hnext | hoff
      · rw [hsame]
        exact .inl hword
      · exact .inl hnext
      · exact .inr ⟨n, rfl, hoff⟩
    · -- the step after the one that has run off the memory is a fault
      have hfault := status_step_of_fault (hoff.step_step hbefore)
      rw [after_succ, after_succ, hfault] at hrun
      cases hrun

/-! ### A way out of the memory -/

/-- An image that writes an instruction that does nothing into the last cell and goes there: three
steps are completed, and then the machine has run off the memory. -/
theorem after_three_of_last_cell {m : Machine} {channel : Channel}
    (h : m.Starts [16, 32767, 21, 6, 32767] channel) :
    (m.after 3).status = .running ∧ (m.after 3).pc = 32768 := by
  obtain ⟨hmemory, hrun, hpc, -, -⟩ := h
  -- an instruction is written into the last cell
  have hwrite : m.fetch = .ok (.writeCell (.literal 32767) (.literal 21)) :=
    fetch_of_image hmemory (a := 0) hpc (by decide) rfl rfl
  have hstores : (m.prepare (.writeCell (.literal 32767) (.literal 21))).Performs
      (.writeCell (.literal 32767) (.literal 21)) (.store 32767 21) := .writeCell rfl rfl
  obtain ⟨hmemory1, hrun1, hpc1⟩ : (m.after 1).memory = m.memory.setCell 32767 21 ∧
      (m.after 1).status = .running ∧ (m.after 1).pc = 3 := by
    rw [after_succ, after_zero, step_of_performs hrun hwrite hstores]
    refine ⟨rfl, hrun, ?_⟩
    show m.pc + 3 = 3
    rw [hpc]
    rfl
  -- the cells of the image are as before
  have hread : ∀ a : Fin 32768, a ≠ 32767 →
      (m.after 1).memory.read a.val = .ok ([16, 32767, 21, 6, 32767].getD a.val 0) := by
    intro a ha
    rw [hmemory1, Memory.read_val, Memory.cell_setCell_of_ne _ _ (Ne.symm ha),
      Memory.cell_load_zero hmemory]
  have hjump : (m.after 1).fetch = .ok (.jump (.literal 32767)) := by
    rw [fetch_eq_ok_iff, hpc1]
    refine ⟨hread 3 (by decide), [32767], rfl, rfl, fun k hk => ?_⟩
    obtain rfl : k = 0 := Nat.lt_one_iff.mp hk
    exact hread 4 (by decide)
  obtain ⟨hmemory2, hrun2, hpc2⟩ : (m.after 2).memory = (m.after 1).memory ∧
      (m.after 2).status = .running ∧ (m.after 2).pc = 32767 := by
    rw [after_succ, step_of_performs hrun1 hjump (.jump rfl)]
    exact ⟨rfl, hrun1, rfl⟩
  have hnoop : (m.after 2).fetch = .ok .noop := by
    rw [fetch_eq_ok_iff, hpc2, hmemory2, hmemory1]
    refine ⟨?_, [], rfl, rfl, fun k hk => absurd hk (Nat.not_lt_zero k)⟩
    have hcell := (m.memory.setCell 32767 21).read_val 32767
    rwa [Memory.cell_setCell_self] at hcell
  rw [after_succ, step_of_performs hrun2 hnoop .noop]
  refine ⟨hrun2, ?_⟩
  show (m.after 2).pc + 1 = 32768
  rw [hpc2]
  rfl

end Machine

/-! ### Sessions -/

/-- **A running machine is inside of the memory or has just left it at the end.**  A fresh machine
takes every loadable image, and when its registers are preset to words then after every sequence of
steps and runs after which it is running, its program counter is the address of a cell, or the last
step has completed an instruction that ends in the last cell and the program counter is the address
behind it.  Then the next step fails, because this is no address of the memory. -/
theorem Monitor.session_pc {image : List Int} (himage : Image.Loadable image) (channel : Channel)
    (settings : Settings) {presets : List (Int × Int)}
    (hpresets : ∀ entry ∈ presets, Word.IsWord entry.2) :
    ∃ first, Execution.start image channel settings presets = .ok first ∧ ∀ calls,
      let last := (first.session calls).machine
      last.status = .running → (0 ≤ last.pc ∧ last.pc ≤ 32767) ∨
        (last.pc = 32768 ∧ last.step.2 = .failed (.fault ⟨.addressOutOfRange 32768, 32768⟩) ∧
          ∃ n i, last = first.machine.after (n + 1) ∧ (first.machine.after n).step.2 = .completed ∧
            (first.machine.after n).fetch = .ok i ∧
            (first.machine.after n).pc + i.width = 32768) := by
  obtain ⟨first, memory, hstart, hload, hfirst⟩ :=
    Execution.exists_start himage channel settings presets
  have hwords : first.machine.HoldsWords := by
    rw [hfirst]
    exact Machine.preset_holdsWords channel memory (Execution.distinct_forall hpresets)
  have hpc : Word.IsWord first.machine.pc := by
    rw [hfirst]
    exact Word.zero_isWord
  refine ⟨first, hstart, fun calls => ?_⟩
  obtain ⟨n, hn⟩ := first.session_machine calls
  dsimp only
  rw [hn]
  intro hrun
  rcases Machine.pc_after hwords hpc hrun with ⟨hlower, hupper⟩ | ⟨k, rfl, hoff⟩
  · exact .inl ⟨hlower, by omega⟩
  · obtain ⟨i, hi, hlast⟩ := hoff.instruction
    exact .inr ⟨hoff.pc_step, hoff.step_step hrun, k, i, rfl, hoff.completed, hi, hlast⟩

/-- A machine with a preset register that has made the three steps of such an image: it is running,
and its next step fails. -/
theorem Monitor.session_pc_of_last_cell :
    Image.Loadable [16, 32767, 21, 6, 32767] ∧
      (∀ entry ∈ [((3 : Int), (32767 : Int))], Word.IsWord entry.2) ∧
      ∃ first,
        Execution.start [16, 32767, 21, 6, 32767] .detached .default [(3, 32767)] = .ok first ∧
        (first.session [.step, .step, .step]).machine.status = .running ∧
        (first.session [.step, .step, .step]).machine.step.2 =
          .failed (.fault ⟨.addressOutOfRange 32768, 32768⟩) := by
  have himage : Image.Loadable [16, 32767, 21, 6, 32767] := by decide
  have hpresets : ∀ entry ∈ [((3 : Int), (32767 : Int))], Word.IsWord entry.2 := by decide
  obtain ⟨first, hstart, hsession⟩ := Monitor.session_pc himage .detached .default hpresets
  obtain ⟨other, hother, hstarts⟩ := Execution.exists_starts himage .detached .default [(3, 32767)]
  obtain rfl : other = first := Except.ok.inj (hother.symm.trans hstart)
  obtain ⟨hrun, hpc⟩ := Machine.after_three_of_last_cell hstarts
  refine ⟨himage, hpresets, other, hstart, hrun, ?_⟩
  rcases hsession [.step, .step, .step] hrun with ⟨-, hle⟩ | ⟨-, hfails, -⟩
  · exact absurd (hpc ▸ hle : (32768 : Int) ≤ 32767) (by decide)
  · exact hfails

/-- A running machine need not be inside of the memory. -/
theorem Monitor.exists_pc_behind_memory : Image.Loadable [16, 32767, 21, 6, 32767] ∧ ∃ first,
    Execution.start [16, 32767, 21, 6, 32767] (.buffer (.ofCodes [])) .default [] = .ok first ∧
      (first.session [.step, .step, .step]).machine.status = .running ∧
      (first.session [.step, .step, .step]).machine.pc = 32768 ∧
      ¬ (0 ≤ (first.session [.step, .step, .step]).machine.pc ∧
        (first.session [.step, .step, .step]).machine.pc ≤ 32767) := by
  have himage : Image.Loadable [16, 32767, 21, 6, 32767] := by decide
  obtain ⟨first, hstart, hstarts⟩ :=
    Execution.exists_starts himage (.buffer (.ofCodes [])) .default []
  obtain ⟨hrun, hpc⟩ := Machine.after_three_of_last_cell hstarts
  refine ⟨himage, first, hstart, hrun, hpc, ?_⟩
  show ¬ (0 ≤ (first.machine.after 3).pc ∧ (first.machine.after 3).pc ≤ 32767)
  omega

end WordMachine
