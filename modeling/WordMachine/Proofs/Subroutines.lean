/-
  Calls and returns.

  A step does nothing to the stack but push an item, drop the top, or leave it alone
  (`stack_step`).  So a part of the stack that no step reaches below stays where it is
  (`suffix_after`), whatever the code does in the meantime.  For a call this part is the caller's
  stack with the return address on top: a return that finds nothing above it continues behind the
  call and leaves the caller's stack (`call_returns`).
-/
import WordMachine.Proofs.Contents

namespace WordMachine

namespace Machine

variable {m : Machine}

/-! ### The stack in a step -/

/-- **What an effect does to the stack.** -/
theorem stack_apply_of_performs {i : Instruction} {e : Effect} (he : m.Performs i e) :
    (m.apply e).stack = m.stack ∨ (∃ x, (m.apply e).stack = m.stack.push x) ∨
      ∃ x, m.stack.items = x :: (m.apply e).stack.items := by
  have hdrop : ∀ {x : Int} {rest : List Int}, m.stack.items = x :: rest →
      ∃ x, m.stack.items = x :: m.stack.drop.items := by
    intro x rest hitems
    exact ⟨x, by rw [Stack.drop, hitems, List.tail_cons]⟩
  cases he with
  | push | call => exact .inr (.inl ⟨_, rfl⟩)
  | pop _ hitems | ret hitems => exact .inr (.inr (hdrop hitems))
  | _ => exact .inl rfl

/-- **What a step does to the stack**: nothing, the push of one item, or the drop of the top. -/
theorem stack_step (m : Machine) : m.step.1.stack = m.stack ∨
    (∃ x, m.step.1.stack = m.stack.push x) ∨
    ∃ x, m.stack.items = x :: m.step.1.stack.items := by
  rcases m.step_cases with ⟨-, hs⟩ | ⟨fault, -, -, hs⟩ | ⟨i, e, -, -, -, hs⟩ | ⟨i, e, -, -, he, hs⟩
  · rw [hs]
    exact .inl rfl
  · rw [hs, stack_fail]
    exact .inl rfl
  · rw [hs, stack_fail]
    exact .inl rfl
  · rw [hs, stack_complete]
    exact stack_apply_of_performs he

/-- **A step keeps a lower part of the stack** unless the stack gets lower than this part. -/
theorem suffix_step {base : List Int} (h : base <:+ m.stack.items)
    (hheight : base.length ≤ m.step.1.stack.height) : base <:+ m.step.1.stack.items := by
  rcases m.stack_step with hsame | ⟨x, hpush⟩ | ⟨x, hdrop⟩
  · rw [hsame]
    exact h
  · rw [hpush]
    exact h.trans (List.suffix_cons x m.stack.items)
  · rw [hdrop, List.suffix_cons_iff] at h
    rcases h with rfl | h
    · -- the part was the whole stack, and the stack has lost its top
      have hlength : m.step.1.stack.height + 1 ≤ m.step.1.stack.height := hheight
      omega
    · exact h

/-- **A run keeps a lower part of the stack** as long as the stack never gets lower than it. -/
theorem suffix_after {base : List Int} (h : base <:+ m.stack.items) {n : Nat}
    (hheight : ∀ k ≤ n, base.length ≤ (m.after k).stack.height) :
    base <:+ (m.after n).stack.items := by
  induction n with
  | zero => exact h
  | succ n ih =>
    have hbefore := ih fun k hk => hheight k (Nat.le_succ_of_le hk)
    exact suffix_step hbefore (hheight (n + 1) (Nat.le_refl _))

/-! ### Calls and returns -/

/-- A completed call has pushed the address behind it, which is one of the memory. -/
theorem step_of_call {target : Operand} (hcall : m.fetch = .ok (.call target))
    (hcompleted : m.step.2 = .completed) :
    m.step.1.stack = m.stack.push (m.pc + 2) ∧ 0 ≤ m.pc + 2 ∧ m.pc + 2 ≤ 32767 := by
  obtain ⟨m', hs⟩ := step_result_eq_completed_iff.mp hcompleted
  obtain ⟨-, i, e, hi, he, rfl⟩ := step_eq_completed_iff.mp hs
  obtain rfl : i = .call target := Except.ok.inj (hi.symm.trans hcall)
  cases he with
  | combine hf => cases hf
  | call back hx hback =>
    have hnext : m.pc + 2 = back.val := hback
    have hlt := back.isLt
    rw [hs, stack_complete, hnext]
    exact ⟨rfl, by omega, by omega⟩

/-- A return takes the top of the stack as the next address. -/
theorem step_of_ret {x : Int} {rest : List Int} (hrun : m.status = .running)
    (hret : m.fetch = .ok .ret) (hitems : m.stack.items = x :: rest) :
    m.step.2 = .completed ∧ m.step.1.pc = x ∧ m.step.1.stack.items = rest := by
  have hs := step_of_performs hrun hret (.ret hitems)
  rw [hs]
  refine ⟨rfl, rfl, ?_⟩
  show m.stack.items.tail = rest
  rw [hitems, List.tail_cons]

/-- **Subroutine discipline.**  A call that is completed pushes the address behind it, an address of
the memory, on the caller's stack.  As long as the stack does not get lower than that, after any
number of further steps of any code, the caller's stack and the return address are still at the
bottom; and when then a return is executed with nothing above them, it is completed, the machine
continues behind the call, and the stack is the caller's again. -/
theorem call_returns {target : Operand} (hcall : m.fetch = .ok (.call target))
    (hcompleted : m.step.2 = .completed) {n : Nat}
    (hheight : ∀ k ≤ n, m.stack.height + 1 ≤ (m.step.1.after k).stack.height) :
    (0 ≤ m.pc + 2 ∧ m.pc + 2 ≤ 32767) ∧
    (m.step.1.after n).stack.toList.take (m.stack.height + 1) = m.stack.toList ++ [m.pc + 2] ∧
    ((m.step.1.after n).status = .running → (m.step.1.after n).fetch = .ok .ret →
      (m.step.1.after n).stack.height = m.stack.height + 1 →
      (m.step.1.after n).step.2 = .completed ∧ (m.step.1.after (n + 1)).pc = m.pc + 2 ∧
        (m.step.1.after (n + 1)).stack = m.stack) := by
  obtain ⟨hpush, haddress⟩ := step_of_call hcall hcompleted
  have hbase : (m.pc + 2) :: m.stack.items <:+ m.step.1.stack.items := by
    rw [hpush]
    exact List.suffix_rfl
  have hlast := suffix_after hbase hheight
  refine ⟨haddress, ?_, fun hrun hret hlevel => ?_⟩
  · -- read from the bottom, a lower part of the stack comes first
    have hprefix : m.stack.toList ++ [m.pc + 2] <+: (m.step.1.after n).stack.toList := by
      rw [← Stack.toList_push]
      exact List.reverse_prefix.mpr hlast
    have hlength : (m.stack.toList ++ [m.pc + 2]).length = m.stack.height + 1 := by
      simp [Stack.toList, Stack.height]
    rw [← hlength]
    exact (List.prefix_iff_eq_take.mp hprefix).symm
  · have hitems : (m.step.1.after n).stack.items = (m.pc + 2) :: m.stack.items :=
      (hlast.eq_of_length hlevel.symm).symm
    obtain ⟨hdone, hpc, hrest⟩ := step_of_ret hrun hret hitems
    exact ⟨hdone, hpc, congrArg Stack.mk hrest⟩

/-- A subroutine that pushes a word, pops it again and returns. -/
theorem call_returns_of_push_pop : ∃ first,
    Execution.start [17, 3, 0, 2, 7, 3, 32768, 18] .detached .default [] = .ok first ∧
      first.machine.fetch = .ok (.call (.literal 3)) ∧ first.machine.step.2 = .completed ∧
      (∀ k ≤ 2, first.machine.stack.height + 1 ≤ (first.machine.step.1.after k).stack.height) ∧
      (first.machine.step.1.after 2).stack.toList.take 1 = [2] ∧
      (first.machine.step.1.after 2).step.2 = .completed ∧
      (first.machine.step.1.after 3).pc = 2 ∧ (first.machine.step.1.after 3).stack = .empty := by
  have himage : Image.Loadable [17, 3, 0, 2, 7, 3, 32768, 18] := by decide
  obtain ⟨first, hstart, hmemory, hrun, hpc, hempty, -⟩ :=
    Execution.exists_starts himage .detached .default []
  refine ⟨first, hstart, ?_⟩
  generalize first.machine = m at hmemory hrun hpc hempty
  have hcall : m.fetch = .ok (.call (.literal 3)) :=
    fetch_of_image hmemory (a := 0) hpc (by decide) rfl rfl
  have hback : m.pc + 2 = (2 : Fin 32768).val := by
    rw [hpc]
    rfl
  have hcallStep := step_of_performs hrun hcall (.call 2 rfl hback)
  have hcompleted : m.step.2 = .completed := by rw [hcallStep]
  obtain ⟨hmemory1, hrun1, hpc1, hstack1⟩ : m.step.1.memory = m.memory ∧
      m.step.1.status = .running ∧ m.step.1.pc = 3 ∧ m.step.1.stack = m.stack.push 2 := by
    rw [hcallStep]
    exact ⟨rfl, hrun, rfl, rfl⟩
  -- the machine in front of each step of the subroutine
  have hpush : m.step.1.fetch = .ok (.push (.literal 7)) :=
    fetch_of_image (a := 3) (by rwa [hmemory1]) hpc1 (by decide) rfl rfl
  have hpushStep := step_of_performs hrun1 hpush (.push rfl)
  obtain ⟨hmemory2, hrun2, hpc2, hstack2⟩ : (m.step.1.after 1).memory = m.memory ∧
      (m.step.1.after 1).status = .running ∧ (m.step.1.after 1).pc = 5 ∧
      (m.step.1.after 1).stack = (m.stack.push 2).push 7 := by
    rw [after_succ, after_zero, hpushStep, ← hstack1]
    refine ⟨hmemory1, hrun1, ?_, rfl⟩
    show m.step.1.pc + 2 = 5
    rw [hpc1]
    rfl
  have hpop : (m.step.1.after 1).fetch = .ok (.pop (.register 0)) :=
    fetch_of_image (a := 5) (by rwa [hmemory2]) hpc2 (by decide) rfl rfl
  have hitems2 : (m.step.1.after 1).stack.items = 7 :: (m.stack.push 2).items := by
    rw [hstack2]
    rfl
  have hpopStep := step_of_performs hrun2 hpop (.pop rfl hitems2)
  obtain ⟨hmemory3, hrun3, hpc3, hstack3⟩ : (m.step.1.after 2).memory = m.memory ∧
      (m.step.1.after 2).status = .running ∧ (m.step.1.after 2).pc = 7 ∧
      (m.step.1.after 2).stack = m.stack.push 2 := by
    rw [after_succ, hpopStep]
    refine ⟨hmemory2, hrun2, ?_, ?_⟩
    · show (m.step.1.after 1).pc + 2 = 7
      rw [hpc2]
      rfl
    · show (m.step.1.after 1).stack.drop = m.stack.push 2
      rw [hstack2]
      rfl
  have hret : (m.step.1.after 2).fetch = .ok .ret :=
    fetch_of_image (a := 7) (by rwa [hmemory3]) hpc3 (by decide) rfl rfl
  have hheight : ∀ k ≤ 2, m.stack.height + 1 ≤ (m.step.1.after k).stack.height := by
    intro k hk
    obtain rfl | rfl | rfl : k = 0 ∨ k = 1 ∨ k = 2 := by omega
    · rw [after_zero, hstack1, hempty]
      decide
    · rw [hstack2, hempty]
      decide
    · rw [hstack3, hempty]
      decide
  have hlevel : (m.step.1.after 2).stack.height = m.stack.height + 1 := by
    rw [hstack3]
    rfl
  obtain ⟨-, hbottom, hreturns⟩ := call_returns hcall hcompleted hheight
  obtain ⟨hdone, hpc4, hstack4⟩ := hreturns hrun3 hret hlevel
  rw [hpc] at hbottom hpc4
  rw [hempty] at hbottom hstack4
  exact ⟨hcall, hcompleted, hheight, hbottom, hdone, hpc4, hstack4⟩

end Machine

end WordMachine
