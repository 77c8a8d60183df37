/-
  Values of settings, as a configuration gives them.

  A setting keeps whatever it was given; `Value.holds` says which values switch a flag on and
  `Value.quantity?` which ones can bound a run.  `Value.text` is the plain text of a value,
  `Value.quoted` its text inside of another value.
-/
import WordMachine.Binary64.Shortest
import WordMachine.Moment
import WordMachine.Text.Quoted

namespace WordMachine

/-- A value that a configuration can hold. -/
inductive Value where
  | null
  | truth (value : Bool)
  | integer (value : Int)
  | real (value : Binary64)
  | text (value : String)
  | moment (value : Moment)
  | list (items : List Value)
  | table (entries : List (String × Value))
  deriving Inhabited, Repr

/-- A value that numbers can be compared with. -/
inductive Quantity where
  | truth (value : Bool)
  | integer (value : Int)
  | real (value : Binary64)
  deriving DecidableEq, Repr

namespace Quantity

/-- Is the quantity at most an integer?  A truth value counts as 1 or 0. -/
def leInt (q : Quantity) (n : Int) : Bool :=
  match q with
  | truth value => (if value then 1 else 0) ≤ n
  | integer value => value ≤ n
  | real value => value.leInt n

/-- The plain text of a quantity. -/
def text : Quantity → String
  | truth value => if value then "True" else "False"
  | integer value => toString value
  | real value => value.text

end Quantity

namespace Value

/-- The quantity that a value is. -/
def quantity? : Value → Option Quantity
  | truth value => some (.truth value)
  | integer value => some (.integer value)
  | real value => some (.real value)
  | _ => none

/-- Does the value switch a flag on?  Nothing, zero and what is empty do not. -/
def holds : Value → Bool
  | null => false
  | truth value => value
  | integer value => value ≠ 0
  | real value => !value.isZero
  | text value => !value.isEmpty
  | moment _ => true
  | list items => !items.isEmpty
  | table entries => !entries.isEmpty

mutual

/-- The text of a value inside of another value. -/
def quoted : Value → String
  | null => "None"
  | truth value => (Quantity.truth value).text
  | integer value => toString value
  | real value => value.text
  | text value => Text.quote value
  | moment value => value.quoted
  | list items => "[" ++ ", ".intercalate (quotedItems items) ++ "]"
  | table entries => "\x7b" ++ ", ".intercalate (quotedEntries entries) ++ "\x7d"

/-- The texts of the items of a list. -/
def quotedItems : List Value → List String
  | [] => []
  | item :: rest => item.quoted :: quotedItems rest

/-- The texts of the entries of a table. -/
def quotedEntries : List (String × Value) → List String
  | [] => []
  | (key, value) :: rest => (Text.quote key ++ ": " ++ value.quoted) :: quotedEntries rest

end

/-- The plain text of a value. -/
def plain : Value → String
  | text value => value
  | moment value => value.text
  | value => value.quoted

end Value

end WordMachine
