/-
  What a program transfers.

  Between two states of recorded input and output there is an account of the codes that have been
  written and of the words that have been stored (`Buffer.Account`).  Each step has one, and the
  accounts of steps add up to the account of a run, however it ends (`Machine.exists_account`).

  The errors that a host program gets are those of the steps (`Monitor.errors_answers`), and the
  end of the input is found exactly when a register is to be read into and all codes have been taken
  (`Machine.exhausts_iff`).  `Monitor.session_transfers` says all of this about a session.
-/
import WordMachine.Proofs.LifeCycle
import WordMachine.Proofs.Observation
import WordMachine.Proofs.Output

namespace WordMachine

/-! ### Accounts -/

namespace Buffer

/-- **The account** between recorded input and output `b` and what has become of it, when codes have
been written and words have been stored since then. -/
structure Account (b b' : Buffer) (written stored : List Int) : Prop where
  /-- The input is the same. -/
  input : b'.input = b.input
  /-- What has been written stands behind what has been there before. -/
  output : b'.output.toList = b.output.toList ++ written
  /-- One code has been taken for each word. -/
  position : b'.position = b.position + stored.length
  /-- Nothing has been taken behind the last code. -/
  position_le : b'.position ≤ b.input.size
  /-- The words are those of the first codes that had not been read. -/
  stored : stored = (b.unread.take stored.length).map Word.reduce

variable {b b' b'' : Buffer} {written written' stored stored' : List Int} {code : Int}

theorem Account.refl (h : b.position ≤ b.input.size) : b.Account b [] [] := by
  refine ⟨rfl, ?_, rfl, h, rfl⟩
  exact (List.append_nil _).symm

theorem account_write (h : b.position ≤ b.input.size) (code : Int) :
    b.Account (b.write code) [code] [] := by
  refine ⟨rfl, ?_, rfl, h, rfl⟩
  exact Array.toList_push

theorem account_advance (h : b.next? = some code) : b.Account b.advance [] [Word.reduce code] := by
  obtain ⟨hlt, -⟩ := Array.getElem?_eq_some_iff.mp h
  refine ⟨rfl, ?_, rfl, hlt, ?_⟩
  · exact (List.append_nil _).symm
  · rw [next?_eq_head?_unread] at h
    rw [List.length_singleton, List.take_one, h]
    rfl

theorem Account.unread (h : b.Account b' written stored) :
    b'.unread = b.unread.drop stored.length := by
  unfold Buffer.unread
  rw [h.input, h.position, List.drop_drop]

/-- **Accounts add up.** -/
theorem Account.trans (h : b.Account b' written stored) (h' : b'.Account b'' written' stored') :
    b.Account b'' (written ++ written') (stored ++ stored') := by
  refine ⟨h'.input.trans h.input, ?_, ?_, ?_, ?_⟩
  · rw [h'.output, h.output, List.append_assoc]
  · rw [h'.position, h.position, List.length_append, Nat.add_assoc]
  · rw [← h.input]
    exact h'.position_le
  · have hlast := h'.stored
    rw [h.unread] at hlast
    rw [List.length_append, List.take_add, List.map_append, ← h.stored, ← hlast]

end Buffer

namespace Machine

variable {m m' : Machine} {b : Buffer}

/-- **The account of a step.** -/
theorem exists_account_step (hb : m.channel = .buffer b) (hposition : b.position ≤ b.input.size) :
    ∃ b', m.step.1.channel = .buffer b' ∧ b.Account b' m.written?.toList m.stored?.toList := by
  cases m.moves_step with
  | write hdone hi hcode hchannel =>
    refine ⟨b.write _, by rw [hchannel, hb]; rfl, ?_⟩
    simp only [written?, stored?, hdone, hi, hcode]
    exact Buffer.account_write hposition _
  | read hdone hi hregister hcode hstored hchannel =>
    rw [hb] at hcode
    refine ⟨b.advance, by rw [hchannel, hb]; rfl, ?_⟩
    simp only [written?, stored?, hdone, hi, hstored]
    exact Buffer.account_advance (Except.ok.inj hcode)
  | rest hout hin hchannel =>
    refine ⟨b, ?_, ?_⟩
    · rcases hchannel with h | h
      · rw [h, hb]
      · rw [h, hb]
        rfl
    · rw [written?_of_executes hout, stored?_of_executes hin]
      exact .refl hposition

/-- **The account of any number of steps**, however these end. -/
theorem exists_account (hb : m.channel = .buffer b) (hposition : b.position ≤ b.input.size)
    (n : Nat) : ∃ b', (m.after n).channel = .buffer b' ∧
      b.Account b' (m.writtenBy n) (m.storedBy n) := by
  induction n with
  | zero => exact ⟨b, hb, .refl hposition⟩
  | succ n ih =>
    obtain ⟨b', hb', h⟩ := ih
    have hposition' : b'.position ≤ b'.input.size := by
      rw [h.input]
      exact h.position_le
    obtain ⟨b'', hb'', h'⟩ := exists_account_step hb' hposition'
    rw [writtenBy_succ, storedBy_succ]
    exact ⟨b'', hb'', h.trans h'⟩

/-! ### The end of the input -/

/-- **When a step finds the end of the input**: it reads into a register, and as many input
instructions as there have been codes are completed. -/
theorem exhausts_iff (hb : m.channel = .buffer b) (hposition : b.position ≤ b.input.size) (n : Nat)
    {pc : Int} : (m.after n).step.2 = .failed (.fault ⟨.inputExhausted, pc⟩) ↔
      (m.after n).pc = pc ∧ (m.after n).ReadsRegister ∧
        b.position + m.executed .input n = b.input.size := by
  obtain ⟨b', hb', h⟩ := exists_account hb hposition n
  have hnext : (m.after n).channel.prepare.next? = .ok none ↔
      b.position + m.executed .input n = b.input.size := by
    have hle := h.position_le
    rw [← length_storedBy, ← h.position, hb']
    show Except.ok b'.input[b'.position]? = .ok none ↔ _
    rw [Except.ok.injEq, Array.getElem?_eq_none_iff, h.input]
    omega
  rw [← hnext, ← step_exhausted_iff]
  constructor
  · intro hfailed
    have hpc : pc = (m.after n).pc := pc_of_fault hfailed
    subst hpc
    exact ⟨rfl, hfailed⟩
  · rintro ⟨rfl, hfailed⟩
    exact hfailed

/-! ### Sessions -/

/-- The steps of a session are those of its machine. -/
theorem Yields.eq_after {results : List StepResult} (h : m.Yields results m') :
    results = (List.range results.length).map (fun k => (m.after k).step.2) ∧
      m' = m.after results.length := by
  induction h with
  | nil => exact ⟨rfl, rfl⟩
  | @cons m next m' result results hs h ih =>
    obtain ⟨hresults, hm'⟩ := ih
    have hnext : next = m.step.1 := by rw [hs]
    subst hnext
    constructor
    · rw [List.length_cons, List.range_succ_eq_map, List.map_cons, List.map_map]
      have hfirst : (m.after 0).step.2 = result := congrArg Prod.snd hs
      have hlater : (fun k => (m.after k).step.2) ∘ Nat.succ =
          fun k => (m.step.1.after k).step.2 := by
        funext k
        rw [after_step]
        rfl
      rw [hfirst, hlater, ← hresults]
    · rw [hm', after_step]
      rfl

end Machine

/-- The error with which a step fails. -/
def StepResult.error? : StepResult → Option StepError
  | failed e => some e
  | _ => none

/-- The error with which a run ends. -/
def RunResult.error? : RunResult → Option StepError
  | failed e => some e
  | _ => none

/-- The error that a host program gets. -/
def Answer.error? : Answer → Option StepError
  | step result => result.error?
  | run (.ok result) => result.error?
  | run (.error _) => none

namespace Monitor

/-- The steps of a run are completed, and there is one more step if the run fails with its error. -/
theorem exists_runResults (limits : Limits) (fuel executed : Nat) (monitor : Monitor) :
    ∃ k, monitor.machine.runResults limits fuel executed = List.replicate k .completed ++
      (run limits fuel executed monitor).2.error?.toList.map .failed := by
  fun_induction run limits fuel executed monitor with
  | case1 fuel executed monitor hrun abort hlimit =>
    exact ⟨0, Machine.runResults_eq_nil (by simp [hlimit]) fuel⟩
  | case2 executed monitor hrun hlimit => exact ⟨0, rfl⟩
  | case3 executed monitor hrun hlimit fuel next e hstep =>
    refine ⟨0, ?_⟩
    rw [Machine.runResults, if_pos ⟨hrun, hlimit⟩, machine_step_of_step hstep]
    rfl
  | case4 executed monitor hrun hlimit fuel next result hresult hstep ih =>
    obtain ⟨k, hk⟩ := ih
    have hs := machine_step_of_step hstep
    have hcompleted := Machine.completed_of_running (Machine.isRunning_iff.mp hrun)
    rw [hs] at hcompleted
    obtain rfl := hcompleted hresult
    refine ⟨k + 1, ?_⟩
    rw [Machine.runResults, if_pos ⟨hrun, hlimit⟩, hs]
    show StepResult.completed :: _ = _
    rw [hk]
    rfl
  | case5 fuel executed monitor hrun =>
    exact ⟨0, Machine.runResults_eq_nil (fun h => hrun h.1) fuel⟩

/-- A run passes on the error of its last step. -/
theorem errors_run (limits : Limits) (fuel executed : Nat) (monitor : Monitor) :
    (monitor.machine.runResults limits fuel executed).filterMap (·.error?) =
      (run limits fuel executed monitor).2.error?.toList := by
  obtain ⟨k, hk⟩ := exists_runResults limits fuel executed monitor
  have hcompleted : (List.replicate k StepResult.completed).filterMap (·.error?) = [] :=
    List.filterMap_replicate_of_none rfl
  rw [hk, List.filterMap_append, hcompleted]
  cases (run limits fuel executed monitor).2.error? <;> rfl

theorem errors_serve (monitor : Monitor) (call : Call) :
    (monitor.machine.callResults call).filterMap (·.error?) =
      (monitor.serve call).2.error?.toList := by
  cases call with
  | step =>
    show [monitor.machine.step.2].filterMap (·.error?) = monitor.machine.step.2.error?.toList
    cases monitor.machine.step.2 <;> rfl
  | run budget seconds fuel =>
    show _ = (Answer.run (monitor.runWithin budget seconds fuel).2).error?.toList
    rcases monitor.runWithin_cases budget seconds fuel with
      ⟨limits, hresults, hwithin⟩ | ⟨hresults, answer, hwithin, hanswer⟩
    · rw [hresults, hwithin]
      exact monitor.errors_run limits fuel 0
    · rw [hresults, hwithin]
      cases answer with
      | error e => rfl
      | ok result =>
        cases result with
        | failed e => exact absurd rfl (hanswer e)
        | _ => rfl

/-- **The errors that a host program gets** are those with which the steps have failed, in order. -/
theorem errors_answers (monitor : Monitor) (calls : List Call) :
    (monitor.answers calls).filterMap (·.error?) =
      (monitor.sessionResults calls).filterMap (·.error?) := by
  induction calls generalizing monitor with
  | nil => rfl
  | cons call calls ih =>
    rw [answers, sessionResults, List.filterMap_append, errors_serve, ← ih]
    cases h : (monitor.serve call).2.error? <;> simp [h]

/-- **No code is lost, duplicated or moved.**  A session on recorded input and output makes some
number of steps, whatever ends its runs.  The output is what has been there before and then the
operands of the completed output instructions; the completed input instructions have taken the first
codes that had not been read, and have stored each of them as a word.  The errors that a host program
gets are those of the steps, and a step fails for want of input exactly when it reads into a register
and all codes have been taken. -/
theorem session_transfers {monitor : Monitor} {b : Buffer}
    (hb : monitor.machine.channel = .buffer b) (hposition : b.position ≤ b.input.size)
    (calls : List Call) : ∃ n b',
      monitor.sessionResults calls =
        (List.range n).map (fun k => (monitor.machine.after k).step.2) ∧
      (monitor.session calls).machine = monitor.machine.after n ∧
      (monitor.session calls).machine.channel = .buffer b' ∧
      b.Account b' (monitor.machine.writtenBy n) (monitor.machine.storedBy n) ∧
      (monitor.machine.writtenBy n).length = monitor.machine.executed .output n ∧
      (monitor.machine.storedBy n).length = monitor.machine.executed .input n ∧
      (monitor.answers calls).filterMap (·.error?) =
        (monitor.sessionResults calls).filterMap (·.error?) ∧
      ∀ k pc, (monitor.machine.after k).step.2 = .failed (.fault ⟨.inputExhausted, pc⟩) ↔
        (monitor.machine.after k).pc = pc ∧ (monitor.machine.after k).ReadsRegister ∧
          b.position + monitor.machine.executed .input k = b.input.size := by
  obtain ⟨hresults, hmachine⟩ := (monitor.session_yields calls).eq_after
  generalize (monitor.sessionResults calls).length = n at hresults hmachine
  obtain ⟨b', hb', haccount⟩ := Machine.exists_account hb hposition n
  rw [← hmachine] at hb'
  refine ⟨n, b', hresults, hmachine, hb', haccount, Machine.length_writtenBy _ n,
    Machine.length_storedBy _ n, monitor.errors_answers calls, ?_⟩
  intro k pc
  exact Machine.exhausts_iff hb hposition k

open Machine in
/-- An echo of a code that is no word, under a budget of one instruction first and then step by
step, until the input is exhausted. -/
theorem session_transfers_of_echo : ∃ first,
    Execution.start [20, 32768, 19, 32768, 20, 32768] (.buffer (.ofCodes [32833])) .default [] =
        .ok first ∧
      first.machine.channel = .buffer (.ofCodes [32833]) ∧
      (Buffer.ofCodes [32833]).position ≤ (Buffer.ofCodes [32833]).input.size ∧
      (∃ b', (first.session [.run (.integer 1) .null 5, .step, .step]).machine.channel =
          .buffer b' ∧ b'.position = 1 ∧ b'.output.toList = [65]) ∧
      .fault ⟨.inputExhausted, 4⟩ ∈
        (first.answers [.run (.integer 1) .null 5, .step, .step]).filterMap (·.error?) := by
  have himage : Image.Loadable [20, 32768, 19, 32768, 20, 32768] := by decide
  obtain ⟨first, hstart, hmemory, hrun, hpc, -, hchannel⟩ :=
    Execution.exists_starts himage (.buffer (.ofCodes [32833])) .default []
  have hposition : (Buffer.ofCodes [32833]).position ≤ (Buffer.ofCodes [32833]).input.size := by
    decide
  obtain ⟨n, b', hresults, -, hb', haccount, -, hstored, herrors, hexhausted⟩ :=
    session_transfers hchannel hposition [.run (.integer 1) .null 5, .step, .step]
  have hlength : (first.sessionResults [.run (.integer 1) .null 5, .step, .step]).length =
      (first.machine.runResults ⟨some (.integer 1), none⟩ 5 0).length + 2 := List.length_append
  rw [hresults, List.length_map, List.length_range] at hlength
  refine ⟨first, hstart, ?_⟩
  generalize first.machine = m at *
  have hfirst : m.IsAt [20, 32768, 19, 32768, 20, 32768] 0 := ⟨hmemory, hrun, hpc⟩
  have hread : m.fetch = .ok (.input (.register 0)) :=
    fetch_of_image hmemory hfirst.pc (by decide) rfl rfl
  have hcode : (m.prepare (.input (.register 0))).channel.next? = .ok (some 32833) := by
    rw [channel_prepare_buffer hchannel]
    rfl
  have hstep := step_of_performs hrun hread (.input rfl hcode)
  -- the machine in front of the output instruction
  have hsecond : (m.after 1).IsAt _ 2 := hfirst.step hread (.input rfl hcode) rfl
  have hvalue : (m.after 1).value (.register 0) = .ok 65 := by
    rw [after_succ, after_zero, hstep]
    show Except.ok ((m.registers.set 0 (Word.reduce 32833)).get 0) = .ok 65
    rw [Registers.get_set_self]
    rfl
  obtain ⟨b1, hchannel1, -⟩ := exists_account hchannel hposition 1
  have hwrite : (m.after 1).fetch = .ok (.output (.register 0)) :=
    fetch_of_image hsecond.loaded hsecond.pc (by decide) rfl rfl
  have haccepts : ((m.after 1).prepare (.output (.register 0))).channel.accepts 65 = .ok () := by
    rw [channel_prepare_buffer hchannel1]
    rfl
  have hstep1 := step_of_performs hsecond.running hwrite (.output hvalue haccepts)
  -- the machine in front of the second input instruction
  have hthird : (m.after 2).IsAt _ 4 := hsecond.step hwrite (.output hvalue haccepts) rfl
  have hagain : (m.after 2).fetch = .ok (.input (.register 0)) :=
    fetch_of_image hthird.loaded hthird.pc (by decide) rfl rfl
  have hdone : m.step.2 = .completed := by rw [hstep]
  have hdone1 : (m.after 1).step.2 = .completed := by rw [hstep1]
  have hread1 : m.executed .input 2 = 1 := by
    rw [executed_succ, executed_succ, executes_of_completed hdone1 hwrite, after_zero,
      executes_of_completed hdone hread]
    rfl
  have hlast : (m.after 2).step.2 = .failed (.fault ⟨.inputExhausted, 4⟩) := by
    apply (hexhausted 2 4).mpr
    rw [hread1]
    exact ⟨hthird.pc, ⟨hthird.running, _, hagain, rfl⟩, rfl⟩
  have hnot : (m.after 2).step.2 ≠ .completed := by simp [hlast]
  have hbudget : m.runResults ⟨some (.integer 1), none⟩ 5 0 = [.completed] := by
    rw [runResults, if_pos ⟨isRunning_iff.mpr hrun, by simp [Limits.reached?_integer]⟩, hstep]
    show StepResult.completed :: runResults _ 4 1 _ = _
    rw [runResults_eq_nil (by simp [Limits.reached?_integer])]
  rw [hbudget] at hlength
  subst hlength
  refine ⟨hchannel, hposition, ⟨b', hb', ?_, ?_⟩, ?_⟩
  · rw [haccount.position, hstored]
    show 0 + m.executed .input 3 = 1
    rw [executed_succ, hread1, executes_of_ne_completed hnot]
    rfl
  · rw [haccount.output]
    show [] ++ m.writtenBy 3 = [65]
    rw [writtenBy_succ, writtenBy_succ, writtenBy_succ,
      written?_of_executes (executes_of_ne_completed hnot _)]
    simp [written?, writtenBy, hdone, hread, hdone1, hwrite, hvalue, Except.toOption]
  · rw [herrors, hresults, List.mem_filterMap]
    exact ⟨_, List.mem_map.mpr ⟨2, by decide, hlast⟩, rfl⟩

end Monitor

end WordMachine
