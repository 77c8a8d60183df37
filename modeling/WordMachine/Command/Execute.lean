/-
  The command that executes an image.

  The work is split so that a program can watch a long execution: `start` does everything up to the
  first instruction, `Session.advance` executes some instructions, and `Session.finish` turns the
  result into an outcome.  `run` does all of it at once.
-/
import WordMachine.Command.Outcome

namespace WordMachine

namespace Command

namespace Execute

/-! ### Exit codes -/

/-- The exit code after a halt. -/
def exitHalted : Nat := 0

/-- The exit code after a limit was reached. -/
def exitAborted : Nat := 3

/-- The exit code after an image was refused. -/
def exitImageError : Nat := 4

/-- The exit code after a fault. -/
def exitFaulted : Nat := 100

/-! ### Requests -/

/-- The options of the command. -/
def declarations : List Options.Declaration :=
  [⟨"--verbose", some 'v', false⟩, ⟨"--trace", none, false⟩, ⟨"--dump", none, false⟩,
    ⟨"--max-steps", none, true⟩, ⟨"--time-limit", none, true⟩, ⟨"--text", none, false⟩,
    ⟨"--binary", none, false⟩, ⟨"--config", some 'c', true⟩, ⟨"--input", some 'i', true⟩,
    ⟨"--help", none, false⟩]

/-- What the command is asked to do. -/
structure Request where
  /-- Is everything logged? -/
  verbose : Bool
  /-- The settings that are given by options. -/
  layer : List (Settings.Key × Value)
  /-- The file with settings. -/
  configuration : Option Path
  /-- The file with the input of the program. -/
  input : Option Path
  /-- The image. -/
  path : Path
  deriving Repr

/-- The value that an option without a value gives to a setting. -/
def flagValue (a : Options.Arguments) (name : String) : Value :=
  if a.has name then .truth true else .null

/-- The value that the format of the image gives to a setting. -/
def formatValue : Option Image.Format → Value
  | none => .null
  | some format => .truth (format = .text)

/-- A path that has to exist. -/
def existing? (files : Files) : Option String → Except FileError (Option (Option Path))
  | none => .ok (some none)
  | some text =>
    (files.holds text).map fun found => if found then some (some (.ofString text)) else none

/-- What a command line asks for; nothing if it is not understood. -/
def request? (files : Files) (a : Options.Arguments) : Except FileError (Option Request) := do
  let configuration ← existing? files (a.last? "--config")
  let input ← existing? files (a.last? "--input")
  return do
    let maxSteps ← a.parse? "--max-steps" Options.integer?
    let timeLimit ← a.parse? "--time-limit" Options.real?
    let layer := [(Settings.Key.trace, flagValue a "--trace"), (.dump, flagValue a "--dump"),
      (.maxSteps, (maxSteps.map Value.integer).getD .null),
      (.timeLimit, (timeLimit.map Value.real).getD .null),
      (.textImage, formatValue (formatOf a))]
    match a.operands with
    | [path] => some ⟨a.has "--verbose", layer, ← configuration, ← input, .ofString path⟩
    | _ => none

/-! ### Sessions -/

/-- An execution on its way. -/
structure Session where
  /-- The least important level that is logged. -/
  threshold : Level
  /-- What was logged before the execution started. -/
  opening : List LogLine
  /-- The machine. -/
  monitor : Monitor
  /-- The limits of the run. -/
  limits : Limits
  /-- The number of instructions of the run that have been executed. -/
  executed : Nat

/-- What has been written to a channel. -/
def outputOf : Channel → String
  | .console c => c.text
  | _ => ""

/-- The line about a fault at a place. -/
def faultAccount (fault : Fault) (place : String) : LogLine :=
  .error s!"Execution faulted with {fault.kind.name} at pc={place}: {fault.message}"

namespace Session

/-- Executes at most `fuel` instructions. -/
def advance (s : Session) (fuel : Nat) : Session × RunResult :=
  let ⟨threshold, opening, monitor, limits, executed⟩ := s
  let (monitor, result) := Monitor.run limits fuel executed monitor
  (⟨threshold, opening, monitor, limits, executed + fuel⟩, result)

/-- The outcome of an execution that has written to its channel and logged some lines, with more
lines at the end. -/
def outcome (s : Session) (ending : Ending) (closing : List LogLine) : Outcome :=
  ⟨ending, outputOf s.monitor.machine.channel,
    logText (some s.threshold) (s.opening ++ s.monitor.log.toList ++ closing)⟩

/-- The outcome of a run that has ended. -/
def finish (s : Session) (result : RunResult) : Outcome :=
  let m := s.monitor.machine
  match result with
  | .stopped =>
    let size := m.memory.loadedSize
    s.outcome (.exit exitHalted)
      [.info s!"Execution halted gracefully after {m.steps} steps, image of {size} words"]
  | .aborted abort => s.outcome (.exit exitAborted) [.info s!"Execution aborted: {abort.message}"]
  | .failed (.fault report) =>
    s.outcome (.exit exitFaulted) [faultAccount report.fault (toString report.pc)]
  | .failed e => s.outcome (.failure (.step e)) []
  | .unfinished => s.outcome (.failure .unfinished) []

end Session

/-! ### Execution -/

/-- The settings of a request: those of its file, then those of its options. -/
def settingsOf (files : Files) (r : Request) : List LogLine × Except ConfigurationError Settings :=
  match r.configuration with
  | none => ([], .ok (Settings.default.giveAll r.layer))
  | some path =>
    ([.debug s!"Loading settings from {path.text}"],
      (Configuration.load files path).map (·.giveAll r.layer))

/-- The terminal of a request: its input comes from a file or else from the given terminal. -/
def consoleOf (files : Files) (terminal : Console) (r : Request) : Except Failure Console :=
  match r.input with
  | none => .ok terminal
  | some path =>
    match files.read path with
    | .error e => .error (.file e)
    | .ok bytes =>
      match Image.fileText? bytes with
      | none => .error .notUtf8
      | some text => .ok ⟨text, .closed, #[]⟩

/-- The format that settings give to an image. -/
def formatOfSettings (s : Settings) : Option Image.Format :=
  match s.textImage with
  | .null => none
  | value => some (if value.holds then .text else .binary)

/-- The outcome of a command that ends before its image is loaded. -/
def refusal (threshold : Level) (ending : Ending) (log : List LogLine) : Outcome :=
  ⟨ending, "", logText (some threshold) log⟩

/-- The line about an image that was refused. -/
def imageAccount (e : ImageError) : LogLine := .error s!"Cannot load image: {e.message}"

/-- Puts the image of a file into a machine. -/
def startImage (threshold : Level) (log : List LogLine) (settings : Settings) (console : Console)
    (image : List Int) : Except Outcome Session :=
  match Execution.start image (.console console) settings [] with
  | .error (_, .image e) =>
    .error (refusal threshold (.exit exitImageError) (log ++ [imageAccount e]))
  | .error (_, .fault fault) =>
    .error (refusal threshold (.exit exitFaulted) (log ++ [faultAccount fault "None"]))
  | .ok monitor =>
    let session := fun limits => Session.mk threshold log monitor limits 0
    match Limits.secondsOf settings.timeLimit, Limits.budgetOf settings.maxSteps with
    | .error e, _ | .ok _, .error e =>
      .error ((session .unlimited).outcome (.failure (.limit e)) [])
    | .ok seconds, .ok budget => .ok (session ⟨budget, seconds⟩)

/-- Does everything that a request asks for up to the first instruction. -/
def start (files : Files) (terminal : Console) (r : Request) : Except Outcome Session :=
  let threshold := if r.verbose then Level.debug else .info
  let log := [LogLine.info "SYNVM"]
  let (more, settings) := settingsOf files r
  let log := log ++ more
  match settings, consoleOf files terminal r with
  | .error e, _ => .error (refusal threshold (.failure (.configuration e)) log)
  | .ok _, .error e => .error (refusal threshold (.failure e) log)
  | .ok settings, .ok console =>
    let (more, answer) := Image.load files r.path (formatOfSettings settings)
    let log := log ++ more
    match answer with
    | .ok image => startImage threshold log settings console image
    | .error e =>
      match failureOf e with
      | .inl failure => .error (refusal threshold (.failure failure) log)
      | .inr e => .error (refusal threshold (.exit exitImageError) (log ++ [imageAccount e]))

/-- What a command line asks for, or the outcome if that is nothing. -/
def read (files : Files) (words : List String) : Except Outcome Request :=
  match Options.read? declarations words with
  | none => .error ⟨.usage, "", []⟩
  | some a =>
    if a.has "--help" then .error ⟨.help, "", []⟩
    else match request? files a with
      | .error e => .error ⟨.failure (.file e), "", []⟩
      | .ok none => .error ⟨.usage, "", []⟩
      | .ok (some r) => .ok r

/-- Does what a request asks for, with at most `fuel` instructions. -/
def perform (files : Files) (terminal : Console) (r : Request) (fuel : Nat) : Outcome :=
  match start files terminal r with
  | .error outcome => outcome
  | .ok session =>
    let (session, result) := session.advance fuel
    session.finish result

/-- Executes a command line with at most `fuel` instructions. -/
def run (files : Files) (terminal : Console) (words : List String) (fuel : Nat) : Outcome :=
  match read files words with
  | .error outcome => outcome
  | .ok r => perform files terminal r fuel

end Execute

end Command

end WordMachine
