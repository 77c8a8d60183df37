/-
  Line ends, tab stops and positions in a text.
-/
namespace WordMachine

namespace Text

/-! ### Line ends -/

/-- Rewrites line ends; `afterReturn` tells that the last character was a carriage return. -/
def joinReturns (afterReturn : Bool) (done : Array Char) : List Char → Array Char
  | [] => done
  | c :: rest =>
    if c = '\r' then joinReturns true (done.push '\n') rest
    else if c = '\n' ∧ afterReturn then joinReturns false done rest
    else joinReturns false (done.push c) rest

/-- A text in which each carriage return, together with a line feed that follows it, has become a
line feed. -/
def normalizeLines (text : List Char) : List Char := (joinReturns false #[] text).toList

/-! ### Tab stops -/

/-- The distance between tab stops. -/
def tabWidth : Nat := 8

/-- Appends blanks. -/
def pushBlanks (done : Array Char) : Nat → Array Char
  | 0 => done
  | n + 1 => pushBlanks (done.push ' ') n

/-- Expands tabs from a column on. -/
def expandFrom (column : Nat) (done : Array Char) : List Char → Array Char
  | [] => done
  | c :: rest =>
    if c = '\t' then
      let gap := tabWidth - column % tabWidth
      expandFrom (column + gap) (pushBlanks done gap) rest
    else if c = '\n' ∨ c = '\r' then expandFrom 0 (done.push c) rest
    else expandFrom (column + 1) (done.push c) rest

/-- A text in which each tab has become the blanks up to the next tab stop.  Columns are counted
anew after a line feed and after a carriage return. -/
def expandTabs (text : List Char) : List Char := (expandFrom 0 #[] text).toList

/-! ### Positions -/

/-- A place in a text: line and column, both counted from 1. -/
structure Position where
  /-- The line; only line feeds end lines. -/
  line : Nat
  /-- The column in characters. -/
  column : Nat
  deriving DecidableEq, Repr

/-- The place behind a beginning of a text. -/
def Position.behind (before : List Char) : Position where
  line := before.count '\n' + 1
  column := (before.reverse.takeWhile (· ≠ '\n')).length + 1

end Text

end WordMachine
