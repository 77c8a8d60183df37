/-
  A machine under observation.

  A `Monitor` runs a machine and keeps a log of what it does.  The machine inside does not depend on
  the log or on what is logged: each operation here is the operation on the machine followed by an
  account of it.
-/
import WordMachine.Log
import WordMachine.Machine.Run

namespace WordMachine

/-- A machine with a log. -/
structure Monitor where
  /-- The machine. -/
  machine : Machine
  /-- Is every instruction logged before it is executed? -/
  trace : Bool
  /-- Is the state logged after every instruction? -/
  dump : Bool
  /-- What has been logged. -/
  log : Array LogLine

namespace Monitor

/-- A fresh machine with an empty log. -/
def fresh (channel : Channel) (trace dump : Bool) : Monitor := ⟨.fresh channel, trace, dump, #[]⟩

/-! ### Accounts -/

/-- The account of a dump. -/
def dumpAccount (m : Machine) : List LogLine := m.dumpLines.map .info

/-- The account of a read at the end of a terminal's input. -/
def closedAccount : LogLine := .debug "Console input closed"

/-- The account of an instruction that is traced. -/
def traceAccount (m : Machine) : List LogLine :=
  match m.status, m.fetch with
  | .running, .ok i => [.info (i.line m.pc)]
  | _, _ => []

/-- The account of a step that failed. -/
def errorAccount (m : Machine) : StepError → List LogLine
  | .fault report =>
    let line := LogLine.debug s!"{report.fault.kind.name} at {report.pc}: {report.fault.message}"
    if report.fault = .inputExhausted ∧ m.channel.isConsole then [closedAccount, line] else [line]
  | _ => []

/-- The account of a step, given the machine after it. -/
def stepAccount (dump : Bool) (m : Machine) : StepResult → List LogLine
  | .ignored => [.debug s!"Step ignored, machine is {m.status.name}"]
  | .failed e => errorAccount m e
  | .completed =>
    let halt := if m.status = .halted then [LogLine.debug s!"Halted at {m.pc}"] else []
    halt ++ if dump then dumpAccount m else []

/-! ### Operations -/

/-- Stores an image. -/
def load (monitor : Monitor) (words : List Int) (base : Int := 0) : Except LoadError Monitor :=
  let ⟨machine, trace, dump, log⟩ := monitor
  match machine.load words base with
  | .error e => .error e
  | .ok m => .ok ⟨m, trace, dump, log.push (.debug s!"Loaded {words.length} words at {base}")⟩

/-- Logs the state of the machine. -/
def debugDump (monitor : Monitor) : Monitor :=
  { monitor with log := monitor.log ++ dumpAccount monitor.machine }

/-- Executes one instruction. -/
def step (monitor : Monitor) : Monitor × StepResult :=
  let ⟨machine, trace, dump, log⟩ := monitor
  let traced := if trace then traceAccount machine else []
  let (m, result) := machine.step
  (⟨m, trace, dump, log ++ traced ++ stepAccount dump m result⟩, result)

/-- Runs the machine for at most `fuel` steps; `executed` instructions of the run are done
already. -/
def run (limits : Limits) : (fuel executed : Nat) → Monitor → Monitor × RunResult
  | fuel, executed, monitor =>
    if monitor.machine.isRunning then
      match limits.reached? executed monitor.machine.pc with
      | some abort => (monitor, .aborted abort)
      | none =>
        match fuel with
        | 0 => (monitor, .unfinished)
        | fuel + 1 =>
          match monitor.step with
          | (next, .failed e) => (next, .failed e)
          | (next, _) => run limits fuel (executed + 1) next
    else (monitor, .stopped)

/-- Runs the machine under the limits that two values stand for.  The time limit is checked first,
and the budget only if the machine is running. -/
def runWithin (budget seconds : Value) (fuel : Nat) (monitor : Monitor) :
    Monitor × Except LimitError RunResult :=
  match Limits.secondsOf seconds with
  | .error e => (monitor, .error e)
  | .ok seconds =>
    if monitor.machine.isRunning then
      match Limits.budgetOf budget with
      | .error e => (monitor, .error e)
      | .ok budget =>
        let (monitor, result) := run ⟨budget, seconds⟩ fuel 0 monitor
        (monitor, .ok result)
    else (monitor, .ok .stopped)

end Monitor

end WordMachine
