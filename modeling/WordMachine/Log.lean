/-
  Log lines.
-/
namespace WordMachine

/-- The importance of a log line. -/
inductive Level where
  | debug
  | info
  | error
  deriving DecidableEq, Repr

namespace Level

/-- The name of a level. -/
def name : Level → String
  | debug => "DEBUG"
  | info => "INFO"
  | error => "ERROR"

/-- Levels by importance. -/
def rank : Level → Nat
  | debug => 10
  | info => 20
  | error => 40

end Level

/-- A line of a log. -/
structure LogLine where
  /-- Its importance. -/
  level : Level
  /-- Its text. -/
  text : String
  deriving DecidableEq, Repr

namespace LogLine

/-- A line for finding errors. -/
def debug (text : String) : LogLine := ⟨.debug, text⟩

/-- A line about what goes on. -/
def info (text : String) : LogLine := ⟨.info, text⟩

/-- A line about something that went wrong. -/
def error (text : String) : LogLine := ⟨.error, text⟩

/-- Is the line at least as important as a level? -/
def passes (threshold : Level) (line : LogLine) : Bool := threshold.rank ≤ line.level.rank

end LogLine

end WordMachine
