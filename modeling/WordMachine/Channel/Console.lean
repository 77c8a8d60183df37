/-
  A channel between a stream of characters and a terminal.

  What reaches the terminal is a sequence of events.  The terminal is flushed before every read, so
  that a prompt is seen, and after every line feed.
-/
import WordMachine.Channel.Character

namespace WordMachine

/-- Something that happens to the terminal. -/
inductive ConsoleEvent where
  /-- A character is written. -/
  | write (point : Nat)
  /-- Everything written so far is made visible. -/
  | flush
  deriving DecidableEq, Repr

/-- What follows the last character of an input stream. -/
inductive InputEnd where
  /-- The stream is closed. -/
  | closed
  /-- The stream goes on with bytes that are not characters. -/
  | corrupt
  deriving DecidableEq, Repr

/-- A terminal with its input. -/
structure Console where
  /-- The characters that have not been read. -/
  input : List Char
  /-- What follows them. -/
  ending : InputEnd
  /-- What has happened to the terminal. -/
  events : Array ConsoleEvent
  deriving DecidableEq, Repr

namespace Console

/-- A terminal with a text as its input. -/
def ofText (text : String) : Console := ⟨text.toList, .closed, #[]⟩

/-- Adds an event. -/
def record (c : Console) (event : ConsoleEvent) : Console :=
  { c with events := c.events.push event }

/-- Makes everything written visible. -/
def flush (c : Console) : Console := c.record .flush

/-- The code that the next read gives; `none` stands for bytes that are not characters. -/
def next? (c : Console) : Option (Option Int) :=
  match c.input, c.ending with
  | char :: _, _ => some (some char.toNat)
  | [], .closed => some none
  | [], .corrupt => none

/-- The terminal after one character has been read. -/
def advance (c : Console) : Console := { c with input := c.input.tail }

/-- Writes a character. -/
def write (c : Console) (point : Nat) : Console :=
  let written := c.record (.write point)
  if point = Character.lineFeed then written.flush else written

/-- The text that has been written since the terminal had a number of events. -/
def textSince (c : Console) (count : Nat) : String :=
  String.ofList ((c.events.toList.drop count).filterMap fun
    | .write point => some (Char.ofNat point)
    | .flush => none)

/-- The text that has been written. -/
def text (c : Console) : String := c.textSince 0

end Console

end WordMachine
