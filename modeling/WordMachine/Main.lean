/-
  The command line.

  The first word `disasm` asks for the listing of an image; all other command lines execute one.
  This module only moves bytes, text and time between the system and the commands.
-/
import WordMachine.Channel.Stream
import WordMachine.Command.Disassemble
import WordMachine.Command.Execute

namespace WordMachine

namespace Command

/-- Reads a file. -/
def readPath (path : Path) : IO (Except FileError (List UInt8)) := do
  try
    return .ok (← IO.FS.readBinFile path.text).toList
  catch
    | .noFileOrDirectory .. => return .error .notFound
    | _ => return .error .isDirectory

/-- Access to the files that the words of a command line can name. -/
def gather (words : List String) : IO Files := do
  let mut found : List (String × Except FileError (List UInt8)) := []
  for word in words do
    let path := Path.ofString word
    found := (path.text, ← readPath path) :: found
  let known := found
  let read (path : Path) : Except FileError (List UInt8) :=
    (known.lookup path.text).getD (.error .notFound)
  let holds (text : String) : Except FileError Bool :=
    match read (.ofString text) with
    | .error .notFound => .ok false
    | _ => .ok true
  return ⟨read, holds⟩

/-- The words of a command line that can name files. -/
def fileWords (known : List Options.Declaration) (words : List String) : List String :=
  match Options.read? known words with
  | none => []
  | some a => a.operands ++ a.options.map (·.value)

/-- Ends a command; `shown` lines of its error output have been shown already. -/
def conclude (outcome : Outcome) (shown : Nat) : IO UInt32 := do
  for line in outcome.errors.drop shown do
    IO.eprintln line
  match outcome.ending with
  | .usage => IO.eprintln "Usage: [OPTIONS] IMAGE"
  | .failure _ => IO.eprintln "Error: the command has failed"
  | _ => pure ()
  return UInt32.ofNat outcome.ending.exitCode

/-- Has a time limit been reached after some milliseconds? -/
def isOver (limit : Option Quantity) (elapsed : Nat) : Bool :=
  limit.any (·.leInt (elapsed / 1000 : Nat))

/-- Executes a session in slices and shows what it does. -/
partial def watch (s : Execute.Session) (started written logged : Nat) : IO UInt32 := do
  let (s, result) := s.advance 65536
  let result ← match result, s.limits.seconds with
    | .unfinished, some q => do
      let late := isOver (some q) ((← IO.monoMsNow) - started)
      pure (if late then .aborted (.time q s.monitor.machine.pc) else result)
    | _, _ => pure result
  let written ← match s.monitor.machine.channel with
    | .console c => do
      (← IO.getStdout).putStr (c.textSince written)
      (← IO.getStdout).flush
      pure c.events.size
    | _ => pure written
  match result with
  | .unfinished =>
    let lines := logText (some s.threshold) (s.opening ++ s.monitor.log.toList)
    for line in lines.drop logged do
      IO.eprintln line
    watch s started written lines.length
  | _ => conclude (s.finish result) logged

/-- Executes an image. -/
def executeImage (words : List String) : IO UInt32 := do
  let files ← gather (fileWords Execute.declarations words)
  match Execute.read files words with
  | .error outcome => conclude outcome 0
  | .ok r =>
    let bytes ← match r.input with
      | none => (← IO.getStdin).readBinToEnd
      | some _ => pure .empty
    match Execute.start files (.ofBytes bytes.toList) r with
    | .error outcome => conclude outcome 0
    | .ok session => watch session (← IO.monoMsNow) 0 0

/-- Lists an image. -/
def listImage (words : List String) : IO UInt32 := do
  let files ← gather (fileWords Disassemble.declarations words)
  let outcome := Disassemble.run files words
  (← IO.getStdout).putStr outcome.output
  conclude outcome 0

end Command

end WordMachine

def main (words : List String) : IO UInt32 :=
  match words with
  | "disasm" :: rest => WordMachine.Command.listImage rest
  | _ => WordMachine.Command.executeImage words
