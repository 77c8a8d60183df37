/-
  The command that lists an image.
-/
import WordMachine.Command.Outcome
import WordMachine.Listing

namespace WordMachine

namespace Command

namespace Disassemble

/-- The options of the command. -/
def declarations : List Options.Declaration :=
  [⟨"--verbose", some 'v', false⟩, ⟨"--text", none, false⟩, ⟨"--binary", none, false⟩,
    ⟨"--start", some 's', true⟩, ⟨"--end", some 'e', true⟩, ⟨"--help", none, false⟩]

/-- What the command is asked to do. -/
structure Request where
  /-- Is everything logged? -/
  verbose : Bool
  /-- The format of the image, if it is given. -/
  format : Option Image.Format
  /-- The first address to list. -/
  start : Int
  /-- The address before which the listing stops. -/
  stop : Option Int
  /-- The image. -/
  path : Path
  deriving DecidableEq, Repr

/-- What a command line asks for; nothing if it is not understood. -/
def request? (a : Options.Arguments) : Option Request := do
  let start ← a.parse? "--start" Options.integer?
  let stop ← a.parse? "--end" Options.integer?
  match a.operands with
  | [path] => some ⟨a.has "--verbose", formatOf a, start.getD 0, stop, .ofString path⟩
  | _ => none

/-- Lists an image. -/
def perform (files : Files) (r : Request) : Outcome :=
  let threshold := if r.verbose then some Level.debug else none
  let (log, answer) := Image.load files r.path r.format
  let errors := logText threshold log
  match answer with
  | .error e =>
    match failureOf e with
    | .inl failure => ⟨.failure failure, "", errors⟩
    | .inr e => ⟨.exit 1, "", errors ++ [s!"Error: {e.message}"]⟩
  | .ok words =>
    match Listing.sweep words r.start r.stop with
    | .error address => ⟨.failure (.noWord address), "", errors⟩
    | .ok entries => ⟨.exit 0, String.join (entries.map fun e => e.text ++ "\n"), errors⟩

/-- What a command line asks for, or the outcome if that is nothing. -/
def read (words : List String) : Except Outcome Request :=
  match Options.read? declarations words with
  | none => .error ⟨.usage, "", []⟩
  | some a =>
    if a.has "--help" then .error ⟨.help, "", []⟩
    else match request? a with
      | none => .error ⟨.usage, "", []⟩
      | some r => .ok r

/-- Executes a command line. -/
def run (files : Files) (words : List String) : Outcome :=
  match read words with
  | .error outcome => outcome
  | .ok r => perform files r

end Disassemble

end Command

end WordMachine
