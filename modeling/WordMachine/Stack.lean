/-
  The stack: a list of integers, the newest first.

  `Stack.toList` shows it from the bottom to the top.  A pop undoes a push (`pop_push`).
-/
import WordMachine.Fault

namespace WordMachine

/-- An unbounded stack.  A host program may push any integer. -/
structure Stack where
  /-- The items from the top to the bottom. -/
  items : List Int
  deriving DecidableEq, Repr

namespace Stack

/-- The stack without items. -/
def empty : Stack := ⟨[]⟩

instance : Inhabited Stack := ⟨empty⟩

/-- The number of items. -/
def height (s : Stack) : Nat := s.items.length

/-- The items from the bottom to the top. -/
def toList (s : Stack) : List Int := s.items.reverse

/-- Puts an item on top. -/
def push (s : Stack) (value : Int) : Stack := ⟨value :: s.items⟩

/-- The stack without its top item. -/
def drop (s : Stack) : Stack := ⟨s.items.tail⟩

/-- The top item and the stack below it. -/
def pop (s : Stack) : Except Fault (Int × Stack) :=
  match s.items with
  | [] => .error .popEmpty
  | value :: rest => .ok (value, ⟨rest⟩)

/-- The top item. -/
def peek (s : Stack) : Except Fault Int :=
  match s.items with
  | [] => .error .peekEmpty
  | value :: _ => .ok value

@[simp] theorem pop_push (s : Stack) (value : Int) : (s.push value).pop = .ok (value, s) := rfl

@[simp] theorem toList_push (s : Stack) (value : Int) :
    (s.push value).toList = s.toList ++ [value] := by
  simp [toList, push]

theorem pop_eq_error_iff {s : Stack} {fault : Fault} :
    s.pop = .error fault ↔ s = empty ∧ fault = .popEmpty := by
  obtain ⟨items⟩ := s
  cases items <;> simp [pop, empty, eq_comm]

/-- The items from the bottom to the top with blanks between them. -/
def dump (s : Stack) : String :=
  match s.items with
  | [] => "<empty>"
  | _ => " ".intercalate (s.toList.map toString)

end Stack

end WordMachine
