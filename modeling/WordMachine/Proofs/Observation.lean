/-
  Tracing and dumping are observations.

  `Monitor.quiet` switches both off and keeps the lines of a log that are written without them.  It
  commutes with everything that a host program can ask of a monitor (`serve_quiet`), so two monitors
  that are the same when they are quiet give the same answers and hold the same machine after each
  call (`observation_only`).  What a trace or a dump shows can always be written out: the numbers in
  a machine stay as short as those that have been put there (`shown_after`).
-/
import WordMachine.Proofs.Contents

namespace WordMachine

/-- A line is an **event** when it is written whether or not the machine is traced or dumped. -/
def LogLine.isEvent (line : LogLine) : Bool := line.level ≠ .info

namespace Monitor

/-- The monitor with tracing and dumping switched off, and with the events of its log only. -/
def quiet (monitor : Monitor) : Monitor where
  machine := monitor.machine
  trace := false
  dump := false
  log := monitor.log.filter (·.isEvent)

/-- What a host program gets back from a sequence of calls. -/
def answers (monitor : Monitor) : List Call → List Answer
  | [] => []
  | call :: calls => (monitor.serve call).2 :: (monitor.serve call).1.answers calls

/-! ### Accounts -/

theorem filter_traceAccount (m : Machine) : (traceAccount m).filter (·.isEvent) = [] := by
  unfold traceAccount
  split <;> rfl

theorem filter_dumpAccount (m : Machine) : (dumpAccount m).filter (·.isEvent) = [] := by
  rw [dumpAccount, List.filter_eq_nil_iff]
  intro line hline
  obtain ⟨text, -, rfl⟩ := List.mem_map.mp hline
  exact Bool.false_ne_true

/-- Errors are events. -/
theorem filter_errorAccount (m : Machine) (e : StepError) :
    (errorAccount m e).filter (·.isEvent) = errorAccount m e := by
  unfold errorAccount
  split
  · dsimp only
    split <;> rfl
  · rfl

/-- The events of a step are the account of a step that is not dumped. -/
theorem filter_stepAccount (dump : Bool) (m : Machine) (result : StepResult) :
    (stepAccount dump m result).filter (·.isEvent) = stepAccount false m result := by
  cases result with
  | ignored => rfl
  | failed e => exact filter_errorAccount m e
  | completed =>
    have hhalt : (if m.status = .halted then [LogLine.debug s!"Halted at {m.pc}"] else []).filter
        (·.isEvent) = if m.status = .halted then [LogLine.debug s!"Halted at {m.pc}"] else [] := by
      split <;> rfl
    have hdump : (if dump then dumpAccount m else []).filter (·.isEvent) = [] := by
      split
      · exact filter_dumpAccount m
      · rfl
    simp only [stepAccount, List.filter_append, hhalt, hdump, Bool.false_eq_true, if_false]

/-! ### Calls -/

/-- **A step of a quiet monitor** is the step, quietly. -/
theorem step_quiet (monitor : Monitor) :
    monitor.quiet.step = (monitor.step.1.quiet, monitor.step.2) := by
  obtain ⟨machine, trace, dump, log⟩ := monitor
  have htrace : (if trace then traceAccount machine else []).filter (·.isEvent) = [] := by
    split
    · exact filter_traceAccount machine
    · rfl
  have hlog : (log ++ (if trace then traceAccount machine else []) ++
      stepAccount dump machine.step.1 machine.step.2).filter (·.isEvent) =
      log.filter (·.isEvent) ++ ([] : List LogLine) ++
        stepAccount false machine.step.1 machine.step.2 := by
    apply Array.ext'
    simp [List.filter_append, htrace, filter_stepAccount]
  simp only [step, quiet, hlog, Bool.false_eq_true, if_false]

/-- **A run of a quiet monitor** is the run, quietly. -/
theorem run_quiet (limits : Limits) (fuel executed : Nat) (monitor : Monitor) :
    run limits fuel executed monitor.quiet =
      ((run limits fuel executed monitor).1.quiet, (run limits fuel executed monitor).2) := by
  -- the limits look at the machine only, so both runs take the same branch at every step
  have hmachine : ∀ monitor : Monitor, monitor.quiet.machine = monitor.machine := fun _ => rfl
  fun_induction run limits fuel executed monitor with
  | case1 fuel executed monitor hrun abort hlimit =>
    rw [run.eq_def]
    simp only [hmachine, hrun, if_true, hlimit]
  | case2 executed monitor hrun hlimit =>
    rw [run]
    simp only [hmachine, hrun, if_true, hlimit]
  | case3 executed monitor hrun hlimit fuel next e hstep =>
    rw [run]
    simp only [hmachine, hrun, if_true, hlimit, step_quiet, hstep]
  | case4 executed monitor hrun hlimit fuel next result hresult hstep ih =>
    rw [run]
    simp only [hmachine, hrun, if_true, hlimit, step_quiet, hstep]
    cases result with
    | failed e => exact absurd rfl (hresult e)
    | ignored | completed => exact ih
  | case5 fuel executed monitor hrun =>
    rw [run.eq_def]
    simp only [hmachine, hrun, Bool.false_eq_true, if_false]

theorem runWithin_quiet (budget seconds : Value) (fuel : Nat) (monitor : Monitor) :
    monitor.quiet.runWithin budget seconds fuel =
      ((monitor.runWithin budget seconds fuel).1.quiet,
        (monitor.runWithin budget seconds fuel).2) := by
  have hmachine : monitor.quiet.machine = monitor.machine := rfl
  unfold runWithin
  rw [hmachine]
  cases Limits.secondsOf seconds with
  | error e => rfl
  | ok seconds =>
    dsimp only
    split
    · cases Limits.budgetOf budget with
      | error e => rfl
      | ok budget =>
        dsimp only
        rw [run_quiet]
    · rfl

theorem serve_quiet (monitor : Monitor) (call : Call) :
    monitor.quiet.serve call = ((monitor.serve call).1.quiet, (monitor.serve call).2) := by
  cases call with
  | step => simp only [serve, step_quiet]
  | run budget seconds fuel => simp only [serve, runWithin_quiet]

theorem answers_quiet (monitor : Monitor) (calls : List Call) :
    monitor.quiet.answers calls = monitor.answers calls := by
  induction calls generalizing monitor with
  | nil => rfl
  | cons call calls ih => rw [answers, answers, serve_quiet, ih]

theorem session_quiet (monitor : Monitor) (calls : List Call) :
    monitor.quiet.session calls = (monitor.session calls).quiet := by
  induction calls generalizing monitor with
  | nil => rfl
  | cons call calls ih =>
    show (monitor.quiet.serve call).1.session calls = _
    rw [serve_quiet, ih]
    rfl

/-- **Tracing and dumping are observations only.**  Whatever the settings of both are, on any
machine and for any sequence of steps and runs, a host program gets the same answers, finds the same
machine after each call, and finds the same log but for the lines of traces and dumps.  Nor can a
dump fail to be written: where all integers have at most 4000 digits in the beginning, the program
counter, the registers and the stack items never have more than 4001, whatever is done, and each
step adds at most one to the number of steps. -/
theorem observation_only (monitor : Monitor) (trace dump : Bool) (calls : List Call) :
    let other : Monitor := { monitor with trace := trace, dump := dump }
    other.answers calls = monitor.answers calls ∧
      (∀ n, (other.session (calls.take n)).machine = (monitor.session (calls.take n)).machine ∧
        (other.session (calls.take n)).log.filter (·.isEvent) =
          (monitor.session (calls.take n)).log.filter (·.isEvent)) ∧
      ((∀ x ∈ monitor.machine.shown, x.natAbs < 10 ^ 4000) →
        ∀ n, (∀ x ∈ (monitor.machine.after n).shown, x.natAbs ≤ 10 ^ 4000) ∧
          (monitor.machine.after n).steps ≤ monitor.machine.steps + n) := by
  intro other
  have hquiet : other.quiet = monitor.quiet := rfl
  refine ⟨?_, fun n => ?_, fun hdigits n => ⟨?_, monitor.machine.steps_after_le n⟩⟩
  · rw [← answers_quiet, hquiet, answers_quiet]
  · have hsame : (other.session (calls.take n)).quiet = (monitor.session (calls.take n)).quiet := by
      rw [← session_quiet, ← session_quiet, hquiet]
    have hmachine := congrArg Monitor.machine hsame
    have hlog := congrArg Monitor.log hsame
    exact ⟨hmachine, hlog⟩
  · exact Machine.shown_after (by decide) hdigits n

/-- A program that does nothing and halts, run with a budget that is too small and then stepped,
with and without tracing and dumping. -/
theorem observation_only_of_noop : ∃ first,
    Execution.start [21, 0] .detached .default [] = .ok first ∧
      (∀ x ∈ first.machine.shown, x.natAbs < 10 ^ 4000) ∧
      ({ first with trace := true, dump := true } : Monitor).answers
          [.run (.integer 1) .null 5, .step, .step] =
        first.answers [.run (.integer 1) .null 5, .step, .step] ∧
      ∀ n, ∀ x ∈ (first.machine.after n).shown, x.natAbs ≤ 10 ^ 4000 := by
  have himage : Image.Loadable [21, 0] := by decide
  obtain ⟨first, memory, hstart, -, hfirst⟩ :=
    Execution.exists_start himage .detached .default []
  have hshown : ∀ x ∈ first.machine.shown, x.natAbs < 10 ^ 4000 := by
    have hzero : ∀ x ∈ first.machine.shown, x = 0 := by
      rw [hfirst]
      show ∀ x ∈ 0 :: (Registers.zero.toList ++ []), x = 0
      decide
    have hpos : ∀ digits : Nat, 0 < 10 ^ digits := fun digits => Nat.pow_pos (by decide)
    intro x hx
    rw [hzero x hx, Int.natAbs_zero]
    exact hpos 4000
  obtain ⟨hanswers, -, hafter⟩ :=
    observation_only first true true [.run (.integer 1) .null 5, .step, .step]
  exact ⟨first, hstart, hshown, hanswers, fun n => (hafter hshown n).1⟩

end Monitor

end WordMachine
