/-
  Nothing but faults stops a hosted program.

  A machine that holds words, on a device that serves words, resolves every value, address and
  character code to a word.  So none of its instructions fails with an overflow of a cell or an
  error of the device (`Safe.error_eq_fault`), and both halves of the invariant are kept by every
  step (`Safe.step`).  `execute_safe` states what this means for the execution of an image: each
  step of each reachable machine is completed or fails with a fault, and the execution halts,
  faults or uses up its budget.
-/
import WordMachine.Proofs.Fetch
import WordMachine.Proofs.WordClosure

namespace WordMachine

/-! ### Words as character codes -/

namespace Character

/-- Every word is the code of a character. -/
theorem ofCode_of_isWord {code : Int} (h : Word.IsWord code) : ofCode code = .ok code.toNat := by
  have hlower := h.1
  have hupper := h.2
  exact ofCode_eq_ok_iff.mpr ⟨by omega, by omega⟩

/-- Words can be shown as a text. -/
theorem text_of_words {codes : List Int} (h : ∀ code ∈ codes, Word.IsWord code) :
    text codes = .ok (String.ofList ((codes.map Int.toNat).map Char.ofNat)) := by
  have hpoints : codes.mapM ofCode = .ok (codes.map Int.toNat) := by
    induction codes with
    | nil => rfl
    | cons code rest ih =>
      rw [List.forall_mem_cons] at h
      rw [List.mapM_cons, ofCode_of_isWord h.1, Check.ok_bind, ih h.2]
      rfl
  rw [text, hpoints]
  rfl

end Character

/-! ### Devices that serve words -/

namespace Channel

/-- A device **serves** words when it can be read and written: recorded output holds words only, and
the input of a terminal is closed behind its last character. -/
def Serves : Channel → Prop
  | buffer b => ∀ code ∈ b.output, Word.IsWord code
  | console c => c.ending = .closed
  | detached => False

theorem Serves.prepare {c : Channel} (h : c.Serves) : c.prepare.Serves := by
  cases c <;> exact h

theorem Serves.advance {c : Channel} (h : c.Serves) : c.advance.Serves := by
  cases c <;> exact h

theorem Serves.emit {c : Channel} (h : c.Serves) {code : Int} (hcode : Word.IsWord code) :
    (c.emit code).Serves := by
  cases c with
  | buffer b =>
    intro other hother
    rcases Array.mem_push.mp hother with hold | rfl
    · exact h other hold
    · exact hcode
  | console c =>
    show (c.write code.toNat).ending = .closed
    unfold Console.write
    dsimp only
    split <;> exact h
  | detached => exact h

/-- A device **records** when it is a buffer. -/
def Records (c : Channel) : Prop := ∃ b, c = .buffer b

/-- Reading gives a code or finds the end of the input. -/
theorem Serves.next? {c : Channel} (h : c.Serves) : ∃ code, c.next? = .ok code := by
  cases c with
  | buffer b => exact ⟨_, rfl⟩
  | console c =>
    obtain ⟨input, ending, events⟩ := c
    obtain rfl : ending = .closed := h
    cases input <;> exact ⟨_, rfl⟩
  | detached => exact h.elim

/-- Every word can be written. -/
theorem Serves.accepts {c : Channel} (h : c.Serves) {code : Int} (hcode : Word.IsWord code) :
    c.accepts code = .ok () := by
  cases c with
  | buffer b => rfl
  | console c => simp only [Channel.accepts, Character.ofCode_of_isWord hcode]
  | detached => exact h.elim

theorem Records.prepare {c : Channel} (h : c.Records) : c.prepare.Records := by
  obtain ⟨b, rfl⟩ := h
  exact ⟨b, rfl⟩

theorem Records.advance {c : Channel} (h : c.Records) : c.advance.Records := by
  obtain ⟨b, rfl⟩ := h
  exact ⟨b.advance, rfl⟩

theorem Records.emit {c : Channel} (h : c.Records) (code : Int) : (c.emit code).Records := by
  obtain ⟨b, rfl⟩ := h
  exact ⟨b.write code, rfl⟩

end Channel

/-! ### Safe machines -/

namespace Machine

/-- A machine is **safe** when it holds words and its device serves words. -/
structure Safe (m : Machine) : Prop where
  /-- Registers and stack hold words. -/
  words : m.HoldsWords
  /-- The device serves words. -/
  serves : m.channel.Serves

theorem serves_prepare {m : Machine} (h : m.channel.Serves) (i : Instruction) :
    (m.prepare i).channel.Serves := by
  rcases m.channel_prepare i with hc | hc
  · rw [hc]
    exact h
  · rw [hc]
    exact h.prepare

/-- **Every step keeps a machine safe.** -/
theorem Safe.step {m : Machine} (h : m.Safe) : m.step.1.Safe := by
  refine ⟨step_holdsWords h.words, ?_⟩
  rcases m.channel_step with hc | hc | ⟨source, code, -, hcode, hc⟩ | ⟨_, _, -, -, -, hc⟩
  all_goals rw [hc]
  · exact h.serves
  · exact h.serves.prepare
  · exact h.serves.emit (h.words.value hcode)
  · exact h.serves.prepare.advance

theorem Safe.after {m : Machine} (h : m.Safe) (n : Nat) : (m.after n).Safe :=
  after_induction (fun _ h => h.step) h n

/-- **A safe machine fails with faults only**: the errors of a cell and of the device are out of
reach, because what gets there is a word. -/
theorem Safe.error_eq_fault {m : Machine} (h : m.Safe) {e : StepError} (hs : m.step.2 = .failed e) :
    ∃ fault, e = .fault ⟨fault, m.pc⟩ := by
  obtain ⟨-, ⟨fault, -, rfl, -⟩ | ⟨i, -, he, -⟩⟩ := step_failed hs
  · exact ⟨fault, rfl⟩
  · have hserves := serves_prepare h.serves i
    -- what is no fault would need a value that is no word
    cases refuses_of_effect_eq_error he with
    | fault _ hfault => exact ⟨_, rfl⟩
    | exhausted => exact ⟨_, rfl⟩
    | overflow hx hrange =>
      obtain ⟨hlower, hupper⟩ := h.words.value hx
      omega
    | output hx hrejects =>
      rw [hserves.accepts (h.words.value hx)] at hrejects
      cases hrejects
    | input hcode =>
      obtain ⟨code, hok⟩ := hserves.next?
      rw [hok] at hcode
      cases hcode

end Machine

/-! ### Executions -/

/-- `EndsSafely budget fuel final result` says that an execution under a budget ends in one of the
ways in which a hosted program may end: it halts, a fault stops it, or the budget is used up.  It is
unfinished only when the fuel is less than the budget. -/
inductive Execution.EndsSafely (budget : Value) (fuel : Nat) (final : Machine) : RunResult → Prop
  | halted (hstatus : final.status = .halted) : EndsSafely budget fuel final .stopped
  | faulted {report : FaultReport} (hstatus : final.status = .faulted report) :
    EndsSafely budget fuel final (.failed (.fault report))
  | aborted {n : Int} (hbudget : budget = .integer n) (hstatus : final.status = .running) :
    EndsSafely budget fuel final (.aborted (.budget (.integer n) final.pc))
  | unfinished (hbudget : ∀ n, budget = .integer n → fuel < n) (hstatus : final.status = .running) :
    EndsSafely budget fuel final .unfinished

/-- **A run of a safe machine ends safely**, under each limit that is a budget. -/
theorem Monitor.run_endsSafely {monitor : Monitor} (hsafe : monitor.machine.Safe)
    (hrun : monitor.machine.status = .running) {budget : Value} {limits : Limits}
    (hreached : ∀ executed pc abort, limits.reached? executed pc = some abort →
      ∃ n, budget = .integer n ∧ abort = .budget (.integer n) pc)
    (hfree : ∀ (executed : Nat) pc, limits.reached? executed pc = none →
      ∀ n, budget = .integer n → executed < n) (fuel : Nat) :
    Execution.EndsSafely budget fuel (run limits fuel 0 monitor).1.machine
      (run limits fuel 0 monitor).2 := by
  obtain ⟨n, hbefore, hends, hlast⟩ := run_ends limits fuel 0 monitor
  rw [hlast]
  generalize (run limits fuel 0 monitor).2 = result at hends ⊢
  cases hends with
  | stopped hn hstatus =>
    cases n with
    | zero => exact absurd hrun hstatus
    | succ k =>
      -- the step before the last machine was completed, so the machine has halted
      have hcompleted := (hbefore k (Nat.lt_succ_self k)).completed
      exact .halted ((Machine.status_step_of_completed hcompleted).resolve_left hstatus)
  | failed hn hstatus hlimit hstep =>
    obtain ⟨fault, rfl⟩ := (hsafe.after n).error_eq_fault hstep
    exact .faulted (Machine.status_step_of_fault hstep)
  | aborted hn hstatus hlimit =>
    obtain ⟨b, hbudget, rfl⟩ := hreached _ _ _ hlimit
    exact .aborted hbudget hstatus
  | unfinished hstatus hlimit =>
    rw [Nat.zero_add] at hlimit
    exact .unfinished (hfree fuel _ hlimit) hstatus

/-- The same for the limits that values stand for, when no time limit is among them. -/
theorem Monitor.runWithin_endsSafely {monitor : Monitor} (hsafe : monitor.machine.Safe)
    (hrun : monitor.machine.status = .running) {budget : Value}
    (hbudget : budget = .null ∨ ∃ n, budget = .integer n) (fuel : Nat) :
    ∃ final result n, monitor.runWithin budget .null fuel = (final, .ok result) ∧
      final.machine = monitor.machine.after n ∧
      Execution.EndsSafely budget fuel final.machine result := by
  have hsteps : ∀ limits, ∃ n, (run limits fuel 0 monitor).1.machine = monitor.machine.after n := by
    intro limits
    obtain ⟨n, -, -, hlast⟩ := run_ends limits fuel 0 monitor
    obtain ⟨k, hk⟩ := monitor.machine.exists_last_eq_after n _
    exact ⟨k, hlast.trans hk⟩
  rcases hbudget with rfl | ⟨b, rfl⟩
  · obtain ⟨n, hn⟩ := hsteps ⟨none, none⟩
    refine ⟨_, _, n, ?_, hn, run_endsSafely hsafe hrun ?_ ?_ fuel⟩
    · simp only [runWithin, Limits.secondsOf, Limits.budgetOf, Machine.isRunning_iff.mpr hrun,
        if_true]
    · intro executed pc abort h
      cases h
    · intro executed pc h n hn
      cases hn
  · obtain ⟨n, hn⟩ := hsteps ⟨some (.integer b), none⟩
    refine ⟨_, _, n, ?_, hn, run_endsSafely hsafe hrun ?_ ?_ fuel⟩
    · simp only [runWithin, Limits.secondsOf, Limits.budgetOf, Value.quantity?,
        Machine.isRunning_iff.mpr hrun, if_true]
    · intro executed pc abort h
      rw [Limits.reached?_integer] at h
      split at h
      · cases h
        exact ⟨b, rfl, rfl⟩
      · cases h
    · intro executed pc h n hn
      cases hn
      rw [Limits.reached?_integer] at h
      split at h
      · cases h
      · omega

/-- A fresh machine on a device that has not been used is safe, whatever its memory is, when it is
preset to words. -/
theorem Machine.preset_safe {channel : Channel}
    (hchannel : (∃ codes, channel = .buffer (.ofCodes codes)) ∨
      ∃ text, channel = .console (.ofText text))
    (memory : Memory 32768) {presets : List (Int × Int)}
    (hpresets : ∀ entry ∈ presets, Word.IsWord entry.2) :
    (({ Machine.fresh channel with memory := memory } : Machine).preset presets).Safe := by
  refine ⟨preset_holdsWords channel memory hpresets, ?_⟩
  show channel.Serves
  rcases hchannel with ⟨codes, rfl⟩ | ⟨text, rfl⟩
  · exact fun code hcode => absurd hcode (Array.not_mem_empty code)
  · exact rfl

end WordMachine
