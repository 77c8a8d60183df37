/-
  Reading a configuration text from its start.

  A `Parse` takes characters off the rest of the text.  Texts are refused for one of two causes only:
  they do not follow the grammar, or a decimal integer in them is too long.
-/
namespace WordMachine

namespace Toml

/-- Why a configuration text was refused. -/
inductive Error where
  /-- The text does not follow the grammar. -/
  | malformed
  /-- A decimal integer has too many digits. -/
  | longNumeral
  deriving DecidableEq, Repr

/-- A reader of the rest of a text. -/
abbrev Parse := StateT (List Char) (Except Error)

namespace Parse

/-- Refuses the text. -/
def refuse {α : Type} : Parse α := throw .malformed

/-- The next character. -/
def peek : Parse (Option Char) := return (← get).head?

/-- Takes characters off, as many as there are of a kind. -/
def skipAll (kind : Char → Bool) : Parse Unit := modify (List.dropWhile kind)

/-- Does the text go on with the given characters? -/
def startsWith (expected : String) : Parse Bool := return expected.toList.isPrefixOf (← get)

/-- Takes the given characters off, if the text goes on with them. -/
def take? (expected : String) : Parse Bool := do
  let found ← startsWith expected
  if found then modify (List.drop expected.toList.length)
  return found

/-- Takes the given characters off. -/
def expect (expected : String) : Parse Unit := do
  unless ← take? expected do refuse

end Parse

/-- Blanks inside of a line. -/
def isBlank (c : Char) : Bool := c = ' ' || c = '\t'

/-- Blanks and line ends. -/
def isBlankOrEnd (c : Char) : Bool := isBlank c || c = '\n'

/-- Control characters other than the tab: no comment and no string holds one as it is, line feeds
in long strings apart. -/
def isControl (c : Char) : Bool := (c.toNat < 32 && c ≠ '\t') || c.toNat = 127

/-- Takes off blanks. -/
def skipBlanks : Parse Unit := .skipAll isBlank

/-- Takes off a comment, if there is one; it goes up to the end of the line. -/
def skipComment : Parse Unit := do
  if (← Parse.peek) = some '#' then
    let text ← get
    if (text.takeWhile (· ≠ '\n')).any isControl then Parse.refuse
    set (text.dropWhile (· ≠ '\n'))

/-- Takes off blanks, line ends and comments. -/
def skipLines : Parse Unit := do
  for _ in [0 : (← get).length] do
    Parse.skipAll isBlankOrEnd
    skipComment
    if (← Parse.peek) ≠ some '\n' then return

end Toml

end WordMachine
