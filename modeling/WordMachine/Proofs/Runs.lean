/-
  Runs as sequences of steps.

  `Machine.after m n` is the machine after `n` steps, whatever they do.  A run under any limits is
  a number of steps that ends in one of four ways (`run_ends`), and a session, in which a host
  program steps and runs the machine in any order, is a number of steps as well
  (`session_machine`).  So what a step preserves holds after every session.
-/
import WordMachine.Machine.Monitor
import WordMachine.Proofs.Steps

namespace WordMachine

namespace Machine

/-! ### Sequences of steps -/

/-- The machine after a number of steps, completed or not. -/
def after (m : Machine) : Nat → Machine
  | 0 => m
  | n + 1 => (m.after n).step.1

@[simp] theorem after_zero (m : Machine) : m.after 0 = m := rfl

theorem after_succ (m : Machine) (n : Nat) : m.after (n + 1) = (m.after n).step.1 := rfl

theorem after_add (m : Machine) (k n : Nat) : m.after (k + n) = (m.after k).after n := by
  induction n with
  | zero => rfl
  | succ n ih => rw [← Nat.add_assoc, after_succ, after_succ, ih]

/-- The first step can be split off. -/
theorem after_step (m : Machine) (n : Nat) : m.step.1.after n = m.after (n + 1) := by
  rw [Nat.add_comm, after_add]
  rfl

/-- **What a step preserves holds after any number of steps.** -/
theorem after_induction {P : Machine → Prop} (hstep : ∀ m, P m → P m.step.1) {m : Machine}
    (h : P m) (n : Nat) : P (m.after n) := by
  induction n with
  | zero => exact h
  | succ n ih => exact hstep _ ih

/-- A machine that is not running stays as it is. -/
theorem after_of_not_running {m : Machine} (h : m.status ≠ .running) (n : Nat) : m.after n = m := by
  induction n with
  | zero => rfl
  | succ n ih => rw [after_succ, ih, step_of_not_running h]

/-- What has stopped a machine is there to stay. -/
theorem after_of_le {m : Machine} {k n : Nat} (hk : k ≤ n) (h : (m.after k).status ≠ .running) :
    m.after n = m.after k := by
  obtain ⟨j, rfl⟩ := Nat.exists_eq_add_of_le hk
  rw [after_add, after_of_not_running h]

/-- A machine that a fault has stopped remains so. -/
theorem status_after_of_fault {m : Machine} {k n : Nat} (hk : k < n) {report : FaultReport}
    (hstep : (m.after k).step.2 = .failed (.fault report)) :
    (m.after n).status = .faulted report := by
  have hstatus : (m.after (k + 1)).status = .faulted report := status_step_of_fault hstep
  have hstopped : (m.after (k + 1)).status ≠ .running := by
    rw [hstatus]
    nofun
  rw [after_of_le hk hstopped, hstatus]

/-- `m.Completes n` says that the first `n` steps of the machine `m` are completed. -/
def Completes (m : Machine) (n : Nat) : Prop := ∀ k < n, (m.after k).step.2 = .completed

theorem Completes.mono {m : Machine} {n k : Nat} (h : m.Completes n) (hk : k ≤ n) :
    m.Completes k := by
  intro j hj
  apply h
  omega

theorem Completes.add {m : Machine} {k n : Nat} (h : m.Completes k)
    (h' : (m.after k).Completes n) : m.Completes (k + n) := by
  intro j hj
  by_cases hjk : j < k
  · exact h j hjk
  · have hlast := h' (j - k) (by omega)
    rwa [← after_add, show k + (j - k) = j by omega] at hlast

/-- No step counts for more than one. -/
theorem steps_after_le (m : Machine) (n : Nat) : (m.after n).steps ≤ m.steps + n := by
  induction n with
  | zero => exact Nat.le_refl _
  | succ n ih =>
    have hstep : (m.after n).step.1.steps ≤ (m.after n).steps + 1 := by
      rcases (m.after n).step_cases with ⟨-, hs⟩ | ⟨fault, -, -, hs⟩ | ⟨i, e, -, -, -, hs⟩ | hs
      · rw [hs]
        exact Nat.le_succ _
      · rw [hs, steps_fail]
        exact Nat.le_succ _
      · rw [hs, steps_fail]
        exact Nat.le_succ _
      · obtain ⟨i, e, -, -, -, hs⟩ := hs
        have hcounted := steps_step_of_completed (congrArg Prod.snd hs)
        exact Nat.le_of_eq hcounted
    rw [after_succ]
    omega

/-! ### Runs -/

theorem isRunning_iff {m : Machine} : m.isRunning = true ↔ m.status = .running := decide_eq_true_iff

/-- `m.Continues limits executed k` says that a run of the machine `m` gets over its step number
`k`: the machine is running, no limit is reached, and the step is completed. -/
structure Continues (m : Machine) (limits : Limits) (executed k : Nat) : Prop where
  /-- The machine is running. -/
  running : (m.after k).status = .running
  /-- No limit is reached. -/
  unlimited : limits.reached? (executed + k) (m.after k).pc = none
  /-- The step is completed. -/
  completed : (m.after k).step.2 = .completed

/-- `m.RunEnds limits fuel executed n result` says how a run of the machine `m` under limits ends
after `n` steps, `executed` instructions of the run being done already. -/
inductive RunEnds (m : Machine) (limits : Limits) (fuel executed : Nat) : Nat → RunResult → Prop
  | stopped {n : Nat} (hn : n ≤ fuel) (hstatus : (m.after n).status ≠ .running) :
    RunEnds m limits fuel executed n .stopped
  | failed {n : Nat} {e : StepError} (hn : n < fuel) (hstatus : (m.after n).status = .running)
    (hlimit : limits.reached? (executed + n) (m.after n).pc = none)
    (hstep : (m.after n).step.2 = .failed e) : RunEnds m limits fuel executed n (.failed e)
  | aborted {n : Nat} {abort : Abort} (hn : n ≤ fuel) (hstatus : (m.after n).status = .running)
    (hlimit : limits.reached? (executed + n) (m.after n).pc = some abort) :
    RunEnds m limits fuel executed n (.aborted abort)
  | unfinished (hstatus : (m.after fuel).status = .running)
    (hlimit : limits.reached? (executed + fuel) (m.after fuel).pc = none) :
    RunEnds m limits fuel executed fuel .unfinished

/-- The machine that a run leaves behind: a failed step is not counted, but it is made. -/
def last (m : Machine) (n : Nat) : RunResult → Machine
  | .failed _ => m.after (n + 1)
  | _ => m.after n

theorem Continues.cons {m : Machine} {limits : Limits} {executed k : Nat}
    (h : m.step.1.Continues limits (executed + 1) k) : m.Continues limits executed (k + 1) := by
  obtain ⟨hrunning, hlimit, hcompleted⟩ := h
  rw [after_step] at hrunning hlimit hcompleted
  rw [show executed + 1 + k = executed + (k + 1) by omega] at hlimit
  exact ⟨hrunning, hlimit, hcompleted⟩

/-- What ends a run after a first step ends it one step later when that step is counted. -/
theorem RunEnds.cons {m : Machine} {limits : Limits} {fuel executed n : Nat} {result : RunResult}
    (h : m.step.1.RunEnds limits fuel (executed + 1) n result) :
    m.RunEnds limits (fuel + 1) executed (n + 1) result := by
  have hcount : ∀ k, executed + 1 + k = executed + (k + 1) := by omega
  cases h with
  | stopped hn hstatus =>
    rw [after_step] at hstatus
    exact .stopped (by omega) hstatus
  | failed hn hstatus hlimit hstep =>
    rw [after_step] at hstatus hlimit hstep
    rw [hcount] at hlimit
    exact .failed (by omega) hstatus hlimit hstep
  | aborted hn hstatus hlimit =>
    rw [after_step] at hstatus hlimit
    rw [hcount] at hlimit
    exact .aborted (by omega) hstatus hlimit
  | unfinished hstatus hlimit =>
    rw [after_step] at hstatus hlimit
    rw [hcount] at hlimit
    exact .unfinished hstatus hlimit

/-- A run is a number of steps. -/
theorem exists_last_eq_after (m : Machine) (n : Nat) (result : RunResult) :
    ∃ k, m.last n result = m.after k := by
  cases result with
  | failed e => exact ⟨n + 1, rfl⟩
  | stopped | aborted abort | unfinished => exact ⟨n, rfl⟩

theorem last_step (m : Machine) (n : Nat) (result : RunResult) :
    m.step.1.last n result = m.last (n + 1) result := by
  cases result <;> exact m.after_step _

end Machine

/-- A number of instructions is the only limit that is reached. -/
theorem Limits.reached?_integer (n : Int) (executed : Nat) (pc : Int) :
    (⟨some (.integer n), none⟩ : Limits).reached? executed pc =
      if n ≤ executed then some (.budget (.integer n) pc) else none := by
  by_cases h : n ≤ executed <;> simp [reached?, Quantity.leInt, Option.filter, h]

/-! ### Calls of a host program -/

/-- What a host program asks of a machine. -/
inductive Call where
  /-- Executes one instruction. -/
  | step
  /-- Runs the machine under the limits that two values stand for, for at most `fuel` steps. -/
  | run (budget seconds : Value) (fuel : Nat)

/-- What a host program gets back. -/
inductive Answer where
  /-- What a step did. -/
  | step (result : StepResult)
  /-- How a run ended. -/
  | run (result : Except LimitError RunResult)

namespace Monitor

/-- The machine inside of a monitor does not depend on what is logged. -/
theorem step_machine (monitor : Monitor) : monitor.step.1.machine = monitor.machine.step.1 := rfl

theorem step_result (monitor : Monitor) : monitor.step.2 = monitor.machine.step.2 := rfl

/-- Does what a call asks for. -/
def serve (monitor : Monitor) : Call → Monitor × Answer
  | .step => let (next, result) := monitor.step; (next, .step result)
  | .run budget seconds fuel =>
    let (next, result) := monitor.runWithin budget seconds fuel; (next, .run result)

/-- The monitor after a sequence of calls, whatever they return. -/
def session (monitor : Monitor) (calls : List Call) : Monitor :=
  calls.foldl (fun monitor call => (monitor.serve call).1) monitor

/-- **A run is a number of steps** of the machine: it gets over some of them and then ends in one of
four ways. -/
theorem run_ends (limits : Limits) (fuel executed : Nat) (monitor : Monitor) :
    ∃ n, (∀ k < n, monitor.machine.Continues limits executed k) ∧
      monitor.machine.RunEnds limits fuel executed n (run limits fuel executed monitor).2 ∧
      (run limits fuel executed monitor).1.machine =
        monitor.machine.last n (run limits fuel executed monitor).2 := by
  have hnone : ∀ (m : Machine) (executed : Nat), ∀ k < 0, m.Continues limits executed k :=
    fun _ _ k hk => absurd hk (Nat.not_lt_zero k)
  -- the recursion of `run` splits off the first step, while `after` splits off the last one
  fun_induction run limits fuel executed monitor with
  | case1 fuel executed monitor hrun abort hlimit =>
    rw [Machine.isRunning_iff] at hrun
    exact ⟨0, hnone _ _, .aborted (Nat.zero_le fuel) hrun hlimit, rfl⟩
  | case2 executed monitor hrun hlimit =>
    rw [Machine.isRunning_iff] at hrun
    exact ⟨0, hnone _ _, .unfinished hrun hlimit, rfl⟩
  | case3 executed monitor hrun hlimit fuel next e hstep =>
    rw [Machine.isRunning_iff] at hrun
    have hnext : next.machine = monitor.machine.step.1 := by
      rw [← step_machine, hstep]
    have hresult : monitor.machine.step.2 = .failed e := by
      rw [← step_result, hstep]
    exact ⟨0, hnone _ _, .failed (Nat.succ_pos fuel) hrun hlimit hresult, hnext⟩
  | case4 executed monitor hrun hlimit fuel next result hresult hstep ih =>
    rw [Machine.isRunning_iff] at hrun
    have hnext : next.machine = monitor.machine.step.1 := by
      rw [← step_machine, hstep]
    have hcompleted : monitor.machine.step.2 = .completed := by
      apply Machine.completed_of_running hrun
      rw [← step_result, hstep]
      exact hresult
    obtain ⟨n, hbefore, hends, hlast⟩ := ih
    rw [hnext] at hbefore hends hlast
    refine ⟨n + 1, fun k hk => ?_, hends.cons, hlast.trans (Machine.last_step _ n _)⟩
    cases k with
    | zero => exact ⟨hrun, hlimit, hcompleted⟩
    | succ k => exact (hbefore k (Nat.lt_of_succ_lt_succ hk)).cons
  | case5 fuel executed monitor hrun =>
    rw [Machine.isRunning_iff] at hrun
    exact ⟨0, hnone _ _, .stopped (Nat.zero_le fuel) hrun, rfl⟩

theorem serve_machine (monitor : Monitor) (call : Call) :
    ∃ n, (monitor.serve call).1.machine = monitor.machine.after n := by
  cases call with
  | step => exact ⟨1, rfl⟩
  | run budget seconds fuel =>
    show ∃ n, (monitor.runWithin budget seconds fuel).1.machine = monitor.machine.after n
    unfold runWithin
    split
    · exact ⟨0, rfl⟩
    · split
      · split
        · exact ⟨0, rfl⟩
        · obtain ⟨n, -, -, hlast⟩ := run_ends ⟨_, _⟩ fuel 0 monitor
          obtain ⟨k, hk⟩ := monitor.machine.exists_last_eq_after n _
          exact ⟨k, hlast.trans hk⟩
      · exact ⟨0, rfl⟩

/-- **A session is a number of steps.** -/
theorem session_machine (monitor : Monitor) (calls : List Call) :
    ∃ n, (monitor.session calls).machine = monitor.machine.after n := by
  induction calls generalizing monitor with
  | nil => exact ⟨0, rfl⟩
  | cons call calls ih =>
    obtain ⟨k, hk⟩ := monitor.serve_machine call
    obtain ⟨n, hn⟩ := ih (monitor.serve call).1
    refine ⟨k + n, ?_⟩
    rw [Machine.after_add, ← hk]
    exact hn

end Monitor

end WordMachine
