/-
  The life cycle of a machine.

  `Monitor.sessionResults` lists what the steps of a session have done, and `Yields` ties the list
  to the machine that the session leaves behind (`session_yields`).  A machine is faulted exactly
  when the list has a fault in it, and it counts the completed steps of the list; where it stops, it
  stands at the instruction that has stopped it (`Stands.step`).  A machine that has stopped does
  not change any more (`Monitor.atRest`).  `Monitor.life_cycle` says all of this about every machine
  that a host program can get.
-/
import WordMachine.Proofs.Atomicity
import WordMachine.Proofs.Loading

namespace WordMachine

/-! ### What the steps of a session do -/

namespace Machine

/-- What the steps of a run do, in order. -/
def runResults (limits : Limits) : (fuel executed : Nat) → Machine → List StepResult
  | 0, _, _ => []
  | fuel + 1, executed, m =>
    if m.isRunning ∧ limits.reached? executed m.pc = none then
      match m.step with
      | (_, .failed e) => [.failed e]
      | (next, result) => result :: runResults limits fuel (executed + 1) next
    else []

/-- What the steps of a call do, in order.  A run with a refused limit makes no steps. -/
def callResults (m : Machine) : Call → List StepResult
  | .step => [m.step.2]
  | .run budget seconds fuel =>
    match Limits.secondsOf seconds, Limits.budgetOf budget with
    | .ok seconds, .ok budget => m.runResults ⟨budget, seconds⟩ fuel 0
    | _, _ => []

/-- `m.Yields results m'` says that steps with these results lead from the machine `m` to the
machine `m'`. -/
inductive Yields : Machine → List StepResult → Machine → Prop
  | nil (m : Machine) : Yields m [] m
  | cons {m next m' : Machine} {result : StepResult} {results : List StepResult}
    (hs : m.step = (next, result)) (h : Yields next results m') : Yields m (result :: results) m'

variable {m m' m'' : Machine} {results results' : List StepResult}

theorem Yields.append (h : m.Yields results m') (h' : m'.Yields results' m'') :
    m.Yields (results ++ results') m'' := by
  induction h with
  | nil => exact h'
  | cons hs h ih => exact .cons hs (ih h')

theorem runResults_eq_nil {limits : Limits} {executed : Nat}
    (h : ¬ (m.isRunning ∧ limits.reached? executed m.pc = none)) (fuel : Nat) :
    m.runResults limits fuel executed = [] := by
  cases fuel with
  | zero => rfl
  | succ fuel => rw [runResults, if_neg h]

end Machine

namespace Monitor

/-- What the steps of a session do, in order. -/
def sessionResults (monitor : Monitor) : List Call → List StepResult
  | [] => []
  | call :: calls =>
    monitor.machine.callResults call ++ (monitor.serve call).1.sessionResults calls

/-- A step of a monitor is a step of its machine. -/
theorem machine_step_of_step {monitor next : Monitor} {result : StepResult}
    (h : monitor.step = (next, result)) : monitor.machine.step = (next.machine, result) := by
  have hnext : monitor.machine.step.1 = next.machine := by rw [← step_machine, h]
  have hresult : monitor.machine.step.2 = result := by rw [← step_result, h]
  exact Prod.ext hnext hresult

theorem run_yields (limits : Limits) (fuel executed : Nat) (monitor : Monitor) :
    monitor.machine.Yields (monitor.machine.runResults limits fuel executed)
      (run limits fuel executed monitor).1.machine := by
  fun_induction run limits fuel executed monitor with
  | case1 fuel executed monitor hrun abort hlimit =>
    rw [Machine.runResults_eq_nil (by simp [hlimit])]
    exact .nil _
  | case2 executed monitor hrun hlimit => exact .nil _
  | case3 executed monitor hrun hlimit fuel next e hstep =>
    have hs := machine_step_of_step hstep
    rw [Machine.runResults, if_pos ⟨hrun, hlimit⟩, hs]
    exact .cons hs (.nil _)
  | case4 executed monitor hrun hlimit fuel next result hresult hstep ih =>
    have hs := machine_step_of_step hstep
    rw [Machine.runResults, if_pos ⟨hrun, hlimit⟩, hs]
    cases result with
    | failed e => exact absurd rfl (hresult e)
    | ignored | completed => exact .cons hs ih
  | case5 fuel executed monitor hrun =>
    rw [Machine.runResults_eq_nil (fun h => hrun h.1)]
    exact .nil _

/-- **A call of a run** is a run under two limits, or else it makes no steps and no error of a step
comes out of it. -/
theorem runWithin_cases (monitor : Monitor) (budget seconds : Value) (fuel : Nat) :
    (∃ limits, monitor.machine.callResults (.run budget seconds fuel) =
        monitor.machine.runResults limits fuel 0 ∧
      monitor.runWithin budget seconds fuel =
        ((run limits fuel 0 monitor).1, .ok (run limits fuel 0 monitor).2)) ∨
    (monitor.machine.callResults (.run budget seconds fuel) = [] ∧
      ∃ answer, monitor.runWithin budget seconds fuel = (monitor, answer) ∧
        ∀ e, answer ≠ .ok (.failed e)) := by
  unfold Machine.callResults runWithin
  dsimp only
  cases Limits.secondsOf seconds with
  | error e => exact .inr ⟨rfl, _, rfl, nofun⟩
  | ok limit =>
    by_cases hrun : monitor.machine.isRunning
    · simp only [hrun, if_true]
      cases Limits.budgetOf budget with
      | error e => exact .inr ⟨rfl, _, rfl, nofun⟩
      | ok quantity => exact .inl ⟨⟨quantity, limit⟩, rfl, rfl⟩
    · -- a machine that has stopped makes no steps, whatever the budget is
      simp only [hrun, Bool.false_eq_true, if_false]
      refine .inr ⟨?_, _, rfl, nofun⟩
      cases Limits.budgetOf budget with
      | error e => rfl
      | ok quantity => exact Machine.runResults_eq_nil (fun h => hrun h.1) fuel

theorem serve_yields (monitor : Monitor) (call : Call) :
    monitor.machine.Yields (monitor.machine.callResults call) (monitor.serve call).1.machine := by
  cases call with
  | step => exact .cons rfl (.nil _)
  | run budget seconds fuel =>
    show monitor.machine.Yields (monitor.machine.callResults (.run budget seconds fuel))
      (monitor.runWithin budget seconds fuel).1.machine
    rcases monitor.runWithin_cases budget seconds fuel with
      ⟨limits, hresults, hwithin⟩ | ⟨hresults, answer, hwithin, -⟩
    · rw [hresults, hwithin]
      exact monitor.run_yields limits fuel 0
    · rw [hresults, hwithin]
      exact .nil _

/-- **The steps of a session** are those that lead to the machine after it. -/
theorem session_yields (monitor : Monitor) (calls : List Call) :
    monitor.machine.Yields (monitor.sessionResults calls) (monitor.session calls).machine := by
  induction calls generalizing monitor with
  | nil => exact .nil _
  | cons call calls ih => exact (monitor.serve_yields call).append (ih (monitor.serve call).1)

end Monitor

/-! ### One step -/

theorem Status.report?_eq_some_iff {status : Status} {report : FaultReport} :
    status.report? = some report ↔ status = .faulted report := by
  cases status <;> simp [report?]

namespace Machine

/-- **When a machine is faulted**: it has been before, or the step has failed with this fault. -/
theorem status_step_eq_faulted_iff {m : Machine} {report : FaultReport} :
    m.step.1.status = .faulted report ↔
      m.status = .faulted report ∨ m.step.2 = .failed (.fault report) := by
  rcases m.step_cases with
    ⟨-, hs⟩ | ⟨fault, hrun, -, hs⟩ | ⟨i, e, hrun, -, -, hs⟩ | ⟨i, e, hrun, -, -, hs⟩
  · simp [hs]
  · simp [hs, hrun, fail, blame]
  · have hready : (m.prepare i).status = .running := hrun
    cases e <;> simp [hs, hrun, hready, fail]
  · have hcompleted : m.step.2 = .completed := congrArg Prod.snd hs
    rcases status_step_of_completed hcompleted with hstatus | hstatus <;>
      simp [hrun, hstatus, hcompleted]

/-- **When a machine is halted**: it has been before, or it has executed a halt instruction. -/
theorem halted_step {m : Machine} (h : m.step.1.status = .halted) :
    m.status = .halted ∨
      m.fetch = .ok .halt ∧ m.step = ((m.prepare .halt).complete .halt, .completed) := by
  rcases m.step_cases with
    ⟨-, hs⟩ | ⟨fault, hrun, -, hs⟩ | ⟨i, e, hrun, -, -, hs⟩ | ⟨i, e, hrun, hi, he, hs⟩
  · rw [hs] at h
    exact .inl h
  · rw [hs] at h
    cases h
  · rw [hs] at h
    have hready : (m.prepare i).status = .running := hrun
    cases e with
    | fault report => cases h
    | cellOverflow | channel => exact absurd (hready.symm.trans h) (by simp)
  · cases he with
    | halt => exact .inr ⟨hi, hs⟩
    | _ =>
      rw [hs] at h
      exact absurd (hrun.symm.trans h) (by simp)

/-- The steps that are counted are the completed ones. -/
theorem steps_step (m : Machine) : m.step.1.steps = m.steps + [m.step.2].count .completed := by
  rcases m.step_cases with ⟨-, hs⟩ | ⟨fault, -, -, hs⟩ | ⟨i, e, -, -, -, hs⟩ | ⟨i, e, -, -, -, hs⟩
  · rw [hs]
    rfl
  · rw [hs, steps_fail]
    rfl
  · rw [hs, steps_fail]
    rfl
  · have hcompleted : m.step.2 = .completed := by rw [hs]
    rw [steps_step_of_completed hcompleted, hcompleted]
    rfl

/-- A machine that has stopped **stands** at the instruction that has stopped it. -/
structure Stands (m : Machine) : Prop where
  /-- The fault that has stopped a machine has happened at the program counter. -/
  faulted : ∀ report, m.status = .faulted report → report.pc = m.pc
  /-- There is a halt instruction at the program counter of a halted machine. -/
  halted : m.status = .halted → m.memory.read m.pc = .ok 0

/-- **Every step keeps this**, completed or not. -/
theorem Stands.step {m : Machine} (h : m.Stands) : m.step.1.Stands where
  faulted report hstatus := by
    rcases status_step_eq_faulted_iff.mp hstatus with hbefore | hfault
    · rw [step_of_not_running (by simp [hbefore])]
      exact h.faulted report hbefore
    · rw [pc_of_fault hfault, (agrees_step_of_failed hfault).pc]
  halted hstatus := by
    rcases halted_step hstatus with hbefore | ⟨hfetch, hs⟩
    · rw [step_of_not_running (by simp [hbefore])]
      exact h.halted hbefore
    · -- a halt leaves memory and program counter as they are
      rw [hs]
      exact (fetch_eq_ok_iff.mp hfetch).1

/-! ### Any number of steps -/

/-- **The life cycle** of a machine that has been fresh and has made steps with some results since
then. -/
structure LifeCycle (m : Machine) (results : List StepResult) : Prop where
  /-- The recorded fault is the one with which a step has failed. -/
  fault : ∀ report, m.status.report? = some report ↔ .failed (.fault report) ∈ results
  /-- A machine is faulted when a fault is recorded. -/
  faulted : m.status.name = "faulted" ↔ ∃ report, m.status.report? = some report
  /-- The fault has happened at the program counter. -/
  fault_pc : ∀ report, m.status.report? = some report → report.pc = m.pc
  /-- There is a halt instruction at the program counter of a halted machine. -/
  halted : m.status = .halted → m.memory.read m.pc = .ok 0
  /-- The completed steps are counted. -/
  steps : m.steps = results.count .completed
  /-- A step that halts the machine is one of these. -/
  halting : m.status = .running → m.step.1.status = .halted → m.step.2 = .completed
  /-- A step that faults the machine is none of these. -/
  faulting : m.status = .running → ∀ report, m.step.1.status = .faulted report →
    m.step.2 = .failed (.fault report)

section Yields

variable {m m' : Machine} {results : List StepResult}

theorem Yields.status_eq_faulted_iff (h : m.Yields results m') {report : FaultReport} :
    m'.status = .faulted report ↔
      m.status = .faulted report ∨ .failed (.fault report) ∈ results := by
  induction h with
  | nil => simp
  | @cons m next m' result results hs h ih =>
    have hstep : next.status = .faulted report ↔
        m.status = .faulted report ∨ .failed (.fault report) = result := by
      have hiff := @status_step_eq_faulted_iff m report
      rwa [hs, @eq_comm _ result] at hiff
    rw [ih, hstep, or_assoc, List.mem_cons]

theorem Yields.steps (h : m.Yields results m') :
    m'.steps = m.steps + results.count .completed := by
  induction h with
  | nil => rfl
  | @cons m next m' result results hs h ih =>
    have hcount : ([result] ++ results).count .completed =
        [result].count .completed + results.count .completed := List.count_append
    have hstep := m.steps_step
    rw [hs] at hstep
    rw [ih, hstep, Nat.add_assoc, ← hcount, List.singleton_append]

theorem Yields.stands (h : m.Yields results m') (hm : m.Stands) : m'.Stands := by
  induction h with
  | nil => exact hm
  | cons hs h ih =>
    have hnext := hm.step
    rw [hs] at hnext
    exact ih hnext

/-- The life cycle starts with a machine that is running and has not made any steps yet. -/
theorem Yields.lifeCycle (h : m.Yields results m') (hrun : m.status = .running)
    (hsteps : m.steps = 0) : m'.LifeCycle results := by
  have hfault : ∀ report, m'.status.report? = some report ↔ .failed (.fault report) ∈ results := by
    intro report
    rw [Status.report?_eq_some_iff, h.status_eq_faulted_iff, hrun]
    simp
  have hstands : m'.Stands := h.stands ⟨by simp [hrun], by simp [hrun]⟩
  refine ⟨hfault, ?_, fun report hreport => ?_, hstands.halted, ?_, fun hrun' hhalted => ?_,
    fun hrun' report hfaulted => ?_⟩
  · cases m'.status <;> simp [Status.name, Status.report?]
  · exact hstands.faulted report (Status.report?_eq_some_iff.mp hreport)
  · rw [h.steps, hsteps, Nat.zero_add]
  · rcases halted_step hhalted with hbefore | ⟨-, hs⟩
    · rw [hrun'] at hbefore
      cases hbefore
    · rw [hs]
  · rcases status_step_eq_faulted_iff.mp hfaulted with hbefore | hfailed
    · rw [hrun'] at hbefore
      cases hbefore
    · exact hfailed

end Yields

end Machine

/-! ### Sessions -/

namespace Monitor

/-- A monitor is **at rest** when nothing that a host program asks for changes its machine any
more. -/
structure AtRest (monitor : Monitor) : Prop where
  /-- A step is ignored. -/
  step : monitor.step.2 = .ignored ∧ monitor.step.1.machine = monitor.machine
  /-- A run has ended before it starts, under any budget and any time limit. -/
  run : ∀ (budget seconds : Value) (fuel : Nat) (limit : Option Quantity),
    Limits.secondsOf seconds = .ok limit →
      monitor.runWithin budget seconds fuel = (monitor, .ok .stopped)
  /-- The same machine is left behind by every session. -/
  session : ∀ calls, (monitor.session calls).machine = monitor.machine

/-- **A machine that has stopped** is at rest. -/
theorem atRest {monitor : Monitor} (h : monitor.machine.status ≠ .running) : monitor.AtRest where
  step := by
    rw [step_result, step_machine, Machine.step_of_not_running h]
    exact ⟨rfl, rfl⟩
  run budget seconds fuel limit hlimit := by
    have hstopped : ¬ monitor.machine.isRunning := fun hrun => h (Machine.isRunning_iff.mp hrun)
    unfold runWithin
    simp only [hlimit, hstopped, Bool.false_eq_true, if_false]
  session calls := by
    obtain ⟨n, hn⟩ := monitor.session_machine calls
    rw [hn, Machine.after_of_not_running h]

/-- **The life cycle of every machine that a host program can get.**  A fresh machine takes every
loadable image.  After every sequence of steps and runs, a fault is recorded exactly when the
machine is faulted, it is the one with which a step has failed, and it has happened at the program
counter; a halted machine stands at a halt instruction; and the number of steps is the number of all
steps that have been completed, the one that has halted the machine included.  Once the machine has
stopped, nothing changes it any more. -/
theorem life_cycle {image : List Int} (himage : Image.Loadable image) (channel : Channel)
    (settings : Settings) (presets : List (Int × Int)) :
    ∃ first, Execution.start image channel settings presets = .ok first ∧ ∀ calls,
      first.machine.Yields (first.sessionResults calls) (first.session calls).machine ∧
      (first.session calls).machine.LifeCycle (first.sessionResults calls) ∧
      ((first.session calls).machine.status ≠ .running → (first.session calls).AtRest) := by
  obtain ⟨first, memory, hstart, -, hfirst⟩ :=
    Execution.exists_start himage channel settings presets
  have hrun : first.machine.status = .running := by
    rw [hfirst]
    rfl
  have hsteps : first.machine.steps = 0 := by
    rw [hfirst]
    rfl
  refine ⟨first, hstart, fun calls => ?_⟩
  have hyields := first.session_yields calls
  exact ⟨hyields, hyields.lifeCycle hrun hsteps, atRest⟩

/-- A halt behind an instruction that does nothing: after two steps the machine has halted and has
counted both, and a run with a negative budget and no time left returns at once. -/
theorem life_cycle_of_noop : Image.Loadable [21, 0] ∧ ∃ first,
    Execution.start [21, 0] .detached .default [] = .ok first ∧
      (first.session [.step, .step]).machine.status = .halted ∧
      (first.session [.step, .step]).machine.steps = 2 ∧
      (first.session [.step, .step]).runWithin (.integer (-1)) (.integer 0) 0 =
        (first.session [.step, .step], .ok .stopped) := by
  have himage : Image.Loadable [21, 0] := by decide
  obtain ⟨first, hstart, hsession⟩ := life_cycle himage .detached .default []
  obtain ⟨other, hother, hmemory, hrun, hpc, -, -⟩ :=
    Execution.exists_starts himage .detached .default []
  obtain rfl : other = first := Except.ok.inj (hother.symm.trans hstart)
  have hnoop : other.machine.fetch = .ok .noop :=
    Machine.fetch_of_image hmemory (a := 0) hpc (by decide) rfl rfl
  have hfirstStep := Machine.step_of_performs hrun hnoop .noop
  have hpc1 : other.machine.step.1.pc = 1 := by
    rw [hfirstStep]
    show other.machine.pc + 1 = 1
    rw [hpc]
    rfl
  have hrun1 : other.machine.step.1.status = .running := by
    rw [hfirstStep]
    exact hrun
  have hmemory1 : other.machine.step.1.memory = other.machine.memory := by
    rw [hfirstStep]
    rfl
  have hhalt : other.machine.step.1.fetch = .ok .halt :=
    Machine.fetch_of_image (hmemory1 ▸ hmemory) (a := 1) hpc1 (by decide) rfl rfl
  have hsecondStep := Machine.step_of_performs hrun1 hhalt .halt
  have hhalted : (other.session [.step, .step]).machine.status = .halted := by
    show other.machine.step.1.step.1.status = .halted
    rw [hsecondStep]
    rfl
  have hresults : other.sessionResults [.step, .step] = [.completed, .completed] := by
    show [other.machine.step.2] ++ ([other.machine.step.1.step.2] ++ []) = _
    rw [hsecondStep, hfirstStep]
    rfl
  obtain ⟨-, hcycle, hrest⟩ := hsession [.step, .step]
  have hcounted := hcycle.steps
  rw [hresults] at hcounted
  have hstopped := hrest (by simp [hhalted])
  exact ⟨himage, other, hstart, hhalted, hcounted, hstopped.run _ _ _ _ rfl⟩

end Monitor

end WordMachine
