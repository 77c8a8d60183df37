/-
  Executions: an image is loaded into a fresh machine, registers are preset, and the machine runs
  under the limits of the settings.
-/
import WordMachine.Machine.Monitor
import WordMachine.Settings

namespace WordMachine

/-- How an execution ended. -/
inductive ExecutionResult where
  /-- The image was not loaded. -/
  | notLoaded (error : LoadError)
  /-- A limit was refused. -/
  | badLimit (error : LimitError)
  /-- The machine has run. -/
  | ran (result : RunResult)
  deriving DecidableEq, Repr

namespace Execution

/-- Presets with each number once, at its first place and with its last value. -/
def distinct (presets : List (Int × Int)) : List (Int × Int) :=
  presets.foldl (fun done (n, value) =>
    if done.any (·.1 = n) then done.map fun entry => if entry.1 = n then (n, value) else entry
    else done ++ [(n, value)]) []

/-- A machine that is ready to run an image. -/
def start (image : List Int) (channel : Channel) (settings : Settings)
    (presets : List (Int × Int)) : Except (Monitor × LoadError) Monitor :=
  let monitor := Monitor.fresh channel settings.trace.holds settings.dump.holds
  match monitor.load image with
  | .error e => .error (monitor, e)
  | .ok monitor => .ok { monitor with machine := monitor.machine.preset (distinct presets) }

/-- Executes an image for at most `fuel` steps. -/
def execute (image : List Int) (channel : Channel) (settings : Settings)
    (presets : List (Int × Int)) (fuel : Nat) : Monitor × ExecutionResult :=
  match start image channel settings presets with
  | .error (monitor, e) => (monitor, .notLoaded e)
  | .ok monitor =>
    match monitor.runWithin settings.maxSteps settings.timeLimit fuel with
    | (monitor, .error e) => (monitor, .badLimit e)
    | (monitor, .ok result) => (monitor, .ran result)

end Execution

end WordMachine
