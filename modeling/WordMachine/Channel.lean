/-
  The character device behind the input and output instructions.

  A machine is connected to recorded input (`Buffer`), to a terminal (`Console`) or to nothing.
  Reading is split into a preparation that always happens, a look at the next code and an advance;
  writing is split into a check of the code and the write itself.
-/
import WordMachine.Channel.Buffer
import WordMachine.Channel.Console

namespace WordMachine

/-- A character device. -/
inductive Channel where
  /-- Recorded input and captured output. -/
  | buffer (buffer : Buffer)
  /-- A terminal. -/
  | console (console : Console)
  /-- No device. -/
  | detached
  deriving DecidableEq, Repr

/-- Why a device did not read or write. -/
inductive ChannelError where
  /-- There is no device. -/
  | detached
  /-- The input is not made of characters. -/
  | corruptInput
  /-- The code to write is not the code of a character. -/
  | code (error : CodeError)
  deriving DecidableEq, Repr

namespace Channel

/-- What happens before every read: a terminal is flushed. -/
def prepare : Channel → Channel
  | console c => .console c.flush
  | channel => channel

/-- The code that a read gives, or `none` at the end of the input. -/
def next? : Channel → Except ChannelError (Option Int)
  | buffer b => .ok b.next?
  | console c => match c.next? with
    | none => .error .corruptInput
    | some code => .ok code
  | detached => .error .detached

/-- The device after a code has been read. -/
def advance : Channel → Channel
  | buffer b => .buffer b.advance
  | console c => .console c.advance
  | detached => .detached

/-- Can the device write the code?  Recorded output takes every integer. -/
def accepts (code : Int) : Channel → Except ChannelError Unit
  | buffer _ => .ok ()
  | console _ => match Character.ofCode code with
    | .error e => .error (.code e)
    | .ok _ => .ok ()
  | detached => .error .detached

/-- The device after it has written a code that it accepts. -/
def emit (code : Int) : Channel → Channel
  | buffer b => .buffer (b.write code)
  | console c => .console (c.write code.toNat)
  | detached => .detached

/-- Writes a code. -/
def write (channel : Channel) (code : Int) : Except ChannelError Channel :=
  (channel.accepts code).map fun _ => channel.emit code

/-- Reads a code.  The device is prepared in any case. -/
def read (channel : Channel) : Except ChannelError (Option Int) × Channel :=
  let ready := channel.prepare
  match ready.next? with
  | .ok (some code) => (.ok (some code), ready.advance)
  | answer => (answer, ready)

/-- Is the device a terminal? -/
def isConsole : Channel → Bool
  | console _ => true
  | _ => false

end Channel

end WordMachine
