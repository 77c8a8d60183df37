/-
  How a command ends.
-/
import WordMachine.Configuration
import WordMachine.Execution
import WordMachine.Options.Arguments
import WordMachine.Options.Numeral

namespace WordMachine

namespace Command

/-- An error that ends a command before its work is done. -/
inductive Failure where
  /-- The configuration was not read. -/
  | configuration (error : ConfigurationError)
  /-- The file was not read. -/
  | file (error : FileError)
  /-- The bytes of a text are not UTF-8. -/
  | notUtf8
  /-- A numeral has too many digits. -/
  | longNumeral
  /-- A limit was refused. -/
  | limit (error : LimitError)
  /-- An instruction failed without stopping the machine. -/
  | step (error : StepError)
  /-- There is no word at an address that was to be listed. -/
  | noWord (address : Int)
  /-- The run did not come to an end within its fuel. -/
  | unfinished
  deriving DecidableEq, Repr

/-- How a command ends. -/
inductive Ending where
  /-- The command line was not understood. -/
  | usage
  /-- Help was asked for. -/
  | help
  /-- The command ends with an exit code. -/
  | exit (code : Nat)
  /-- An error ends the command. -/
  | failure (failure : Failure)
  deriving DecidableEq, Repr

/-- The exit code of an ending. -/
def Ending.exitCode : Ending → Nat
  | usage => 2
  | help => 0
  | exit code => code
  | failure _ => 1

/-- What a command leaves behind. -/
structure Outcome where
  /-- How it ends. -/
  ending : Ending
  /-- What it wrote to its output. -/
  output : String
  /-- What it wrote to its error output, line by line. -/
  errors : List String
  deriving DecidableEq, Repr

/-- The failure that an error in reading an image is.  An image that is refused is none: commands
report it themselves. -/
def failureOf : Image.FileReadError → Failure ⊕ ImageError
  | .file e => .inl (.file e)
  | .notUtf8 => .inl .notUtf8
  | .longNumeral => .inl .longNumeral
  | .image e => .inr e

/-- The format that the options of a command line give. -/
def formatOf (a : Options.Arguments) : Option Image.Format :=
  (a.lastOf? ["--text", "--binary"]).map fun name => if name = "--text" then .text else .binary

/-- The line that a log line becomes in the error output. -/
def lineText (line : LogLine) : String := s!"{line.level.name}:root:{line.text}"

/-- The lines of a log that are at least as important as a level, as texts. -/
def logText (threshold : Option Level) (lines : List LogLine) : List String :=
  match threshold with
  | none => []
  | some level => (lines.filter (·.passes level)).map lineText

end Command

end WordMachine
