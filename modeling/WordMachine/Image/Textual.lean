/-
  Text images: decimal numerals separated by commas.

  Blanks and comments may stand between the tokens; a comment goes from `#` to the end of the line.
  One comma may follow the last numeral.  Tabs are expanded before the text is read, so that error
  positions count what a reader sees.
-/
import WordMachine.Decimal
import WordMachine.Image.Words

namespace WordMachine

namespace Image

namespace Textual

/-- Why a text was refused. -/
inductive ReadError where
  /-- The text is no image. -/
  | image (error : ImageError)
  /-- A numeral has too many digits. -/
  | longNumeral
  deriving DecidableEq, Repr

/-- The characters that separate tokens. -/
def isBlank (c : Char) : Bool := c = ' ' || c = '\t' || c = '\n' || c = '\r'

/-- Drops blanks and comments.  A comment, in which one is if `inComment`, ends before a line
feed. -/
def skip (inComment : Bool) : List Char → List Char
  | [] => []
  | c :: rest =>
    if inComment then skip (c ≠ '\n') rest
    else if c = '#' then skip true rest
    else if isBlank c then skip false rest
    else c :: rest

theorem length_skip_le (inComment : Bool) (text : List Char) :
    (skip inComment text).length ≤ text.length := by
  induction text generalizing inComment with
  | nil => simp [skip]
  | cons c rest ih =>
    unfold skip
    split
    · exact Nat.le_succ_of_le (ih _)
    · split
      · exact Nat.le_succ_of_le (ih _)
      · split
        · exact Nat.le_succ_of_le (ih _)
        · simp

/-- Which token may come next.  The text may end before either. -/
inductive Expected where
  | numeral
  | comma
  deriving DecidableEq, Repr

/-- Why the tokens of a text were not read. -/
inductive Failure where
  /-- The token at the start of the rest may not stand there. -/
  | unexpected (rest : List Char)
  /-- A numeral has too many digits. -/
  | longNumeral
  deriving DecidableEq, Repr

/-- Reads numerals and commas in turn. -/
def readTokens (expected : Expected) (done : Array Int) (text : List Char) :
    Except Failure (Array Int) :=
  match h : skip false text with
  | [] => .ok done
  | c :: rest =>
    have shorter : rest.length < text.length := by
      have := length_skip_le false text
      simp only [h, List.length_cons] at this
      omega
    match expected with
    | .numeral =>
      if Decimal.isDigit c then
        let digits := c :: rest.takeWhile Decimal.isDigit
        if Decimal.longest < digits.length then .error .longNumeral
        else
          readTokens .comma (done.push (Decimal.value digits)) (rest.dropWhile Decimal.isDigit)
      else .error (.unexpected (c :: rest))
    | .comma =>
      if c = ',' then readTokens .numeral done rest else .error (.unexpected (c :: rest))
termination_by text.length
decreasing_by
  · have := (List.dropWhile_sublist Decimal.isDigit (l := rest)).length_le
    omega
  · exact shorter

/-- The words of a text image. -/
def decode (text : List Char) : Except ReadError (List Int) :=
  let expanded := Text.expandTabs text
  match readTokens .numeral #[] expanded with
  | .error .longNumeral => .error .longNumeral
  | .error (.unexpected rest) =>
    let before := expanded.take (expanded.length - rest.length)
    .error (.image (.malformed (.behind before)))
  | .ok words => (check words.toList).mapError .image

end Textual

end Image

end WordMachine
