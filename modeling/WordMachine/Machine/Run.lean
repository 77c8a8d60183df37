/-
  Runs of a machine under limits.

  `Machine.run` steps until the machine stops, an instruction fails or a limit is reached.  Limits
  are checked before each step and never once the machine has stopped.  The number of instructions
  is counted from the start of the run.
-/
import WordMachine.Machine.Step
import WordMachine.Value

namespace WordMachine

/-! ### Limits -/

/-- Limits of a run. -/
structure Limits where
  /-- The number of instructions after which a run is given up. -/
  budget : Option Quantity
  /-- The number of seconds after which a run is given up. -/
  seconds : Option Quantity
  deriving DecidableEq, Repr

/-- Why a run was given up. -/
inductive Abort where
  /-- The budget of instructions is used up. -/
  | budget (budget : Quantity) (pc : Int)
  /-- The time limit is reached. -/
  | time (seconds : Quantity) (pc : Int)
  deriving DecidableEq, Repr

/-- The wording of an abort. -/
def Abort.message : Abort → String
  | budget q pc => s!"Instruction budget of {q.text} used up at pc={pc}"
  | time q pc => s!"Time limit of {q.text}s reached at pc={pc}"

/-- Why a value is no limit. -/
inductive LimitError where
  /-- The value cannot be compared with a number. -/
  | notQuantity
  /-- The number of seconds is too large. -/
  | tooLarge
  deriving DecidableEq, Repr

namespace Limits

/-- No limits. -/
def unlimited : Limits := ⟨none, none⟩

/-- The budget that a value stands for; the null value stands for none. -/
def budgetOf : Value → Except LimitError (Option Quantity)
  | .null => .ok none
  | value => match value.quantity? with
    | some q => .ok (some q)
    | none => .error .notQuantity

/-- The time limit that a value stands for.  It has to fit into a floating point number. -/
def secondsOf (value : Value) : Except LimitError (Option Quantity) :=
  match budgetOf value with
  | .ok (some (.integer n)) =>
    if (Binary64.ofInt n).isInfinite then .error .tooLarge else .ok (some (.integer n))
  | answer => answer

/-- The limit that stops a run after a number of instructions.  The budget is checked before the
time, and a time limit that is not positive is reached at once. -/
def reached? (limits : Limits) (executed : Nat) (pc : Int) : Option Abort :=
  match limits.budget.filter (·.leInt executed), limits.seconds.filter (·.leInt 0) with
  | some q, _ => some (.budget q pc)
  | none, some q => some (.time q pc)
  | none, none => none

end Limits

/-! ### Runs -/

/-- How a run ended. -/
inductive RunResult where
  /-- The machine has stopped. -/
  | stopped
  /-- An instruction has failed. -/
  | failed (error : StepError)
  /-- A limit was reached; the machine can go on. -/
  | aborted (abort : Abort)
  /-- The run goes on: the fuel was used up first. -/
  | unfinished
  deriving DecidableEq, Repr

namespace Machine

/-- Is the machine running? -/
def isRunning (m : Machine) : Bool := m.status = .running

/-- Runs a machine for at most `fuel` steps; `executed` instructions of the run are done already. -/
def run (limits : Limits) : (fuel executed : Nat) → Machine → Machine × RunResult
  | fuel, executed, m =>
    if m.isRunning then
      match limits.reached? executed m.pc with
      | some abort => (m, .aborted abort)
      | none =>
        match fuel with
        | 0 => (m, .unfinished)
        | fuel + 1 =>
          match m.step with
          | (m', .failed e) => (m', .failed e)
          | (m', _) => run limits fuel (executed + 1) m'
    else (m, .stopped)

end Machine

end WordMachine
