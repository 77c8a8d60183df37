/-
  How the execution of an image ends.

  A safe machine that has made a number of steps has halted, has been stopped by a fault or is still
  running, and its status tells what has happened on the way (`Machine.Safe.faulted_iff`).  Under a
  budget the command gets exactly so far (`Monitor.run_integer_safely`), and its exit code says
  which of the three it was, or that there was no image (`Command.Execute.exit_codes`).
-/
import WordMachine.Command.Execute
import WordMachine.Proofs.Budgets
import WordMachine.Proofs.LoadableImages
import WordMachine.Proofs.Output

namespace WordMachine

/-! ### Where a machine stands after some steps -/

namespace Machine

section Safe

variable {m : Machine}

/-- **A safe machine that is still running has completed all of its steps.** -/
theorem Safe.completes_of_running (h : m.Safe) {n : Nat} (hrun : (m.after n).status = .running) :
    m.Completes n := by
  intro k hk
  have hbefore : (m.after k).status = .running := by
    by_contra hnot
    rw [after_of_le (Nat.le_of_lt hk) hnot] at hrun
    exact hnot hrun
  rcases step_result_of_running hbefore with hcompleted | ⟨e, he⟩
  · exact hcompleted
  · obtain ⟨fault, rfl⟩ := (h.after k).error_eq_fault he
    rw [status_after_of_fault hk he] at hrun
    cases hrun

/-- A machine that has halted once remains halted. -/
theorem halted_iff (n : Nat) :
    (m.after n).status = .halted ↔ ∃ k ≤ n, (m.after k).status = .halted := by
  refine ⟨fun h => ⟨n, Nat.le_refl n, h⟩, ?_⟩
  rintro ⟨k, hk, h⟩
  have hstopped : (m.after k).status ≠ .running := by
    rw [h]
    nofun
  rw [after_of_le hk hstopped, h]

/-- **A safe machine has been stopped by a fault when one of its steps has failed**, all steps in
front of it being completed. -/
theorem Safe.faulted_iff (h : m.Safe) (hrun : m.status = .running) (n : Nat) :
    (∃ report, (m.after n).status = .faulted report) ↔
      ∃ k < n, m.Completes k ∧ ∃ report, (m.after k).step.2 = .failed (.fault report) := by
  constructor
  · rintro ⟨report, hstatus⟩
    induction n with
    | zero =>
      rw [after_zero, hrun] at hstatus
      cases hstatus
    | succ n ih =>
      by_cases hbefore : (m.after n).status = .running
      · -- it is the last step that has failed, since a completed one does not stop a machine so
        refine ⟨n, Nat.lt_succ_self n, h.completes_of_running hbefore, ?_⟩
        rcases step_result_of_running hbefore with hcompleted | ⟨e, he⟩
        · rcases status_step_of_completed hcompleted with hnext | hnext
          all_goals rw [after_succ, hnext] at hstatus; cases hstatus
        · obtain ⟨fault, rfl⟩ := (h.after n).error_eq_fault he
          exact ⟨_, he⟩
      · rw [after_of_le (Nat.le_succ n) hbefore] at hstatus
        obtain ⟨k, hk, hfailed⟩ := ih hstatus
        exact ⟨k, Nat.lt_succ_of_lt hk, hfailed⟩
  · rintro ⟨k, hk, -, report, hstep⟩
    exact ⟨report, status_after_of_fault hk hstep⟩

/-- A run without limits that has ended has left a safe machine stopped. -/
theorem Safe.not_running_of_endsIn (h : m.Safe) {n : Nat} {result : RunResult}
    (hends : m.EndsIn n result) : (m.after n).status ≠ .running := by
  cases hends with
  | stopped hbefore hstatus => exact hstatus
  | @failed k e hbefore hstep =>
    obtain ⟨fault, rfl⟩ := (h.after k).error_eq_fault hstep
    rw [status_after_of_fault (Nat.lt_succ_self k) hstep]
    nofun

end Safe

end Machine

/-- **What a budget leads to**: the machine after as many steps as the budget says. -/
theorem Monitor.run_integer_safely {monitor : Monitor} (hsafe : monitor.machine.Safe)
    (hrun : monitor.machine.status = .running) {budget : Int} {fuel : Nat} (hfuel : budget ≤ fuel) :
    (run ⟨some (.integer budget), none⟩ fuel 0 monitor).1.machine =
        monitor.machine.after budget.toNat ∧
      Execution.EndsSafely (.integer budget) fuel (monitor.machine.after budget.toNat)
        (run ⟨some (.integer budget), none⟩ fuel 0 monitor).2 := by
  have hmachine : (run ⟨some (.integer budget), none⟩ fuel 0 monitor).1.machine =
      monitor.machine.after budget.toNat := by
    rcases run_integer_cases hfuel monitor with ⟨j, hj, hends, hmachine⟩ | ⟨-, -, hmachine, -⟩
    · rw [hmachine, Machine.after_of_le hj (hsafe.not_running_of_endsIn hends)]
    · exact hmachine
  obtain ⟨final, result, n, hwithin, -, hends⟩ :=
    runWithin_endsSafely hsafe hrun (.inr ⟨budget, rfl⟩) fuel
  have hquantity : Limits.budgetOf (.integer budget) = .ok (some (.integer budget)) := rfl
  rw [runWithin_eq hquantity] at hwithin
  cases hwithin
  rw [hmachine] at hends
  exact ⟨hmachine, hends⟩

namespace Command

namespace Execute

/-! ### Requests -/

/-- Where the program gets a text from: the terminal, or a file if one is named. -/
inductive Supplies (files : Files) (terminal : Console) (text : String) : Option String → Prop
  | terminal (h : terminal = .ofText text) : Supplies files terminal text none
  | file {name : String} {bytes : List UInt8} (hholds : files.holds name = .ok true)
    (hbytes : files.read (.ofString name) = .ok bytes)
    (htext : Image.fileText? bytes = some text.toList) : Supplies files terminal text (some name)

/-- `Asks files terminal words a budget path bytes text` says that the words of a command line ask,
by their options and operands `a`, for the execution of an image under a budget of instructions,
without a time limit and without a file of settings.  The image is in a file of some bytes, and the
input of the program is a text. -/
structure Asks (files : Files) (terminal : Console) (words : List String) (a : Options.Arguments)
    (budget : Int) (path : String) (bytes : List UInt8) (text : String) : Prop where
  options : Options.read? declarations words = some a
  no_help : a.has "--help" = false
  budget : a.parse? "--max-steps" Options.integer? = some (some budget)
  no_time : a.last? "--time-limit" = none
  no_configuration : a.last? "--config" = none
  operands : a.operands = [path]
  image : files.read (.ofString path) = .ok bytes
  input : Supplies files terminal text (a.last? "--input")

/-- The format of the image that a command line names. -/
def imageFormat (a : Options.Arguments) (path : String) : Image.Format :=
  (formatOf a).getD (.ofPath (.ofString path))

/-- The settings that options give to a run with a budget. -/
def layerFor (a : Options.Arguments) (budget : Int) : List (Settings.Key × Value) :=
  [(.trace, flagValue a "--trace"), (.dump, flagValue a "--dump"), (.maxSteps, .integer budget),
    (.timeLimit, .null), (.textImage, formatValue (formatOf a))]

/-- All settings of a run with a budget. -/
def settingsFor (a : Options.Arguments) (budget : Int) : Settings :=
  ⟨.truth (a.has "--trace"), .truth (a.has "--dump"), .integer budget, .null,
    formatValue (formatOf a)⟩

theorem giveAll_layerFor (a : Options.Arguments) (budget : Int) :
    Settings.default.giveAll (layerFor a budget) = settingsFor a budget := by
  unfold layerFor settingsFor flagValue
  cases a.has "--trace" <;> cases a.has "--dump" <;> rcases formatOf a with _ | _ | _ <;> rfl

theorem formatOfSettings_settingsFor (a : Options.Arguments) (budget : Int) :
    formatOfSettings (settingsFor a budget) = formatOf a := by
  unfold settingsFor
  rcases formatOf a with _ | _ | _ <;> rfl

/-- The request for a run with a budget. -/
def requestFor (a : Options.Arguments) (budget : Int) (path : String) (input : Option Path) :
    Request :=
  ⟨a.has "--verbose", layerFor a budget, none, input, .ofString path⟩

section Asks

variable {files : Files} {terminal : Console} {words : List String} {a : Options.Arguments}
  {budget : Int} {path : String} {bytes : List UInt8} {text : String}

/-- A command line that asks for such a run is understood. -/
theorem Asks.exists_request (h : Asks files terminal words a budget path bytes text) :
    ∃ input, Execute.read files words = .ok (requestFor a budget path input) ∧
      consoleOf files terminal (requestFor a budget path input) = .ok (.ofText text) := by
  have htime : a.parse? "--time-limit" Options.real? = some none := by
    unfold Options.Arguments.parse?
    rw [h.no_time]
  obtain ⟨input, hinput, hconsole⟩ : ∃ input : Option Path,
      existing? files (a.last? "--input") = .ok (some input) ∧
      ∀ r : Request, r.input = input → consoleOf files terminal r = .ok (.ofText text) := by
    have hsupplies := h.input
    generalize a.last? "--input" = name at hsupplies
    cases hsupplies with
    | terminal hterminal =>
      refine ⟨none, rfl, fun r hr => ?_⟩
      unfold consoleOf
      rw [hr, hterminal]
    | @file name bytes hholds hbytes htext =>
      refine ⟨some (.ofString name), ?_, fun r hr => ?_⟩
      · simp only [existing?, hholds]
        rfl
      · unfold consoleOf
        rw [hr]
        simp only [hbytes, htext, Console.ofText]
  refine ⟨input, ?_, hconsole _ rfl⟩
  have hrequest : request? files a = .ok (some (requestFor a budget path input)) := by
    unfold request?
    rw [h.no_configuration, hinput, h.budget, htime, h.operands]
    rfl
  unfold Execute.read
  rw [h.options]
  simp only [h.no_help, hrequest, Bool.false_eq_true, if_false]

/-! ### Sessions -/

theorem settingsOf_requestFor (files : Files) (input : Option Path) :
    settingsOf files (requestFor a budget path input) = ([], .ok (settingsFor a budget)) := by
  rw [← giveAll_layerFor]
  rfl

/-- An image that is refused ends the command. -/
theorem Asks.ending_of_image_error (h : Asks files terminal words a budget path bytes text)
    {e : ImageError} (he : Image.ofBytes (imageFormat a path) bytes = .error (.image e))
    (fuel : Nat) : (run files terminal words fuel).ending = .exit 4 := by
  obtain ⟨input, hread, hconsole⟩ := h.exists_request
  have hload : Image.ofBytes ((formatOf a).getD (.ofPath (requestFor a budget path input).path))
      bytes = .error (.image e) := he
  have himage : files.read (requestFor a budget path input).path = .ok bytes := h.image
  simp only [run, hread, perform, start, settingsOf_requestFor, hconsole,
    formatOfSettings_settingsFor, Image.load, himage, hload, failureOf]
  rfl

/-- An image that is read is run in a fresh machine for as many steps as the budget says. -/
theorem Asks.exists_run (h : Asks files terminal words a budget path bytes text)
    {image : List Int} (hi : Image.ofBytes (imageFormat a path) bytes = .ok image) {fuel : Nat}
    (hfuel : budget ≤ fuel) :
    ∃ m s result, (Machine.fresh (.console (.ofText text))).load image = .ok m ∧ m.Safe ∧
      m.status = .running ∧ m.channel = .console (.ofText text) ∧
      run files terminal words fuel = Session.finish s result ∧
      s.monitor.machine = m.after budget.toNat ∧
      Execution.EndsSafely (.integer budget) fuel (m.after budget.toNat) result := by
  obtain ⟨input, hread, hconsole⟩ := h.exists_request
  have hload : Image.ofBytes ((formatOf a).getD (.ofPath (requestFor a budget path input).path))
      bytes = .ok image := hi
  have himage : files.read (requestFor a budget path input).path = .ok bytes := h.image
  obtain ⟨monitor, memory, hstart, hmemory, hmachine⟩ :=
    Execution.exists_start (Image.loadable_of_ofBytes hi) (.console (.ofText text))
      (settingsFor a budget) []
  have hsafe : monitor.machine.Safe := by
    rw [hmachine]
    exact Machine.preset_safe (.inr ⟨text, rfl⟩) memory (List.forall_mem_nil _)
  have hrunning : monitor.machine.status = .running := by
    rw [hmachine]
    rfl
  have hrun : run files terminal words fuel =
      perform files terminal (requestFor a budget path input) fuel := by
    unfold run
    rw [hread]
  simp only [perform, start, settingsOf_requestFor, hconsole, formatOfSettings_settingsFor,
    Image.load, himage, hload, startImage, hstart] at hrun
  obtain ⟨hlast, hends⟩ := Monitor.run_integer_safely hsafe hrunning hfuel
  refine ⟨monitor.machine, _, _, ?_, hsafe, hrunning, ?_, hrun, hlast, hends⟩
  · rw [hmachine]
    exact Machine.load_eq_ok_iff.mpr ⟨memory, hmemory, rfl⟩
  · rw [hmachine]
    rfl

end Asks

/-! ### Outcomes -/

/-- An outcome **tells** how a machine gets on under a budget: exit code 0 if it halts within the
budget, 100 if one of the steps in the budget is stopped by a fault, and 3 if all of them have been
completed and the machine is still running.  The output has the characters with the codes that have
been written. -/
structure Tells (m : Machine) (budget : Nat) (outcome : Outcome) : Prop where
  halted : outcome.ending = .exit 0 ↔ ∃ k ≤ budget, (m.after k).status = .halted
  faulted : outcome.ending = .exit 100 ↔
    ∃ k < budget, m.Completes k ∧ ∃ report, (m.after k).step.2 = .failed (.fault report)
  running : outcome.ending = .exit 3 ↔
    m.Completes budget ∧ (m.after budget).status = .running
  output : outcome.output.toList.map (fun char => (char.toNat : Int)) = m.writtenBy budget

/-- The text on a terminal has the characters with the codes that a safe machine has written. -/
theorem codes_outputOf {m : Machine} (hsafe : m.Safe) {text : String}
    (h : m.channel = .console (.ofText text)) (n : Nat) :
    (outputOf (m.after n).channel).toList.map (fun char => (char.toNat : Int)) = m.writtenBy n := by
  obtain ⟨c, hc, hwritten⟩ := Machine.exists_console_after h n
  have hcodes : c.written = (m.writtenBy n).map Int.toNat := hwritten
  have hcode : ∀ code ∈ m.writtenBy n, ((Char.ofNat code.toNat).toNat : Int) = code :=
    fun code hmem => Character.toNat_ofNat_of_isWord (hsafe.writtenBy_isWord n code hmem)
  rw [hc, outputOf, Console.text_eq, hcodes, String.toList_ofList, List.map_map, List.map_map]
  exact (List.map_congr_left hcode).trans (List.map_id _)

/-- **The outcome of a run tells how the machine gets on.** -/
theorem finish_tells {m : Machine} {result : RunResult} {n : Nat} {text : String} (hsafe : m.Safe)
    (hrun : m.status = .running) (hchannel : m.channel = .console (.ofText text)) {budget : Int}
    {fuel : Nat} (hfuel : budget ≤ fuel)
    (hends : Execution.EndsSafely (.integer budget) fuel (m.after n) result) {s : Session}
    (hmachine : s.monitor.machine = m.after n) :
    Tells m n (s.finish result) ∧ ∃ code, (s.finish result).ending = .exit code ∧
      code ∈ [0, 3, 100] := by
  -- the exit code follows the status, and the history of the machine follows from its status
  have htells : ∀ code log, s.finish result = s.outcome (.exit code) log →
      ((code = 0 ↔ (m.after n).status = .halted) ∧
        (code = 100 ↔ ∃ report, (m.after n).status = .faulted report) ∧
        (code = 3 ↔ (m.after n).status = .running)) → Tells m n (s.finish result) := by
    rintro code log hfinish ⟨hhalted, hfaulted, hrunning⟩
    have hcode : (s.finish result).ending = .exit code := by
      rw [hfinish]
      rfl
    have houtput : (s.finish result).output = outputOf (m.after n).channel := by
      rw [hfinish, ← hmachine]
      rfl
    refine ⟨?_, ?_, ?_, ?_⟩
    · rw [hcode, Ending.exit.injEq, hhalted, Machine.halted_iff]
    · rw [hcode, Ending.exit.injEq, hfaulted, hsafe.faulted_iff hrun]
    · rw [hcode, Ending.exit.injEq, hrunning]
      exact ⟨fun h => ⟨hsafe.completes_of_running h, h⟩, fun h => h.2⟩
    · rw [houtput, codes_outputOf hsafe hchannel]
  cases hends with
  | halted hstatus => exact ⟨htells 0 _ rfl (by simp [hstatus]), 0, rfl, by decide⟩
  | faulted hstatus => exact ⟨htells 100 _ rfl (by simp [hstatus]), 100, rfl, by decide⟩
  | aborted _ hstatus => exact ⟨htells 3 _ rfl (by simp [hstatus]), 3, rfl, by decide⟩
  | unfinished hbudget _ =>
    have hlt := hbudget budget rfl
    omega

/-- **The exit codes of an execution.**  Where a command line gives a budget of instructions, no
time limit and no file of settings, the command ends with exit code 4 exactly when the file is
refused as an image.  Otherwise the image is loaded into a fresh machine on the input, and the
outcome tells how this machine gets on, a negative budget counting as none.  There is no other way
to end. -/
theorem exit_codes {files : Files} {terminal : Console} {words : List String}
    {a : Options.Arguments} {budget : Int} {path : String} {bytes : List UInt8} {text : String}
    (h : Asks files terminal words a budget path bytes text)
    (hreadable : Image.Readable (imageFormat a path) bytes) {fuel : Nat} (hfuel : budget ≤ fuel) :
    ((run files terminal words fuel).ending = .exit 4 ↔
      ∃ e, Image.ofBytes (imageFormat a path) bytes = .error (.image e)) ∧
    (∀ image, Image.ofBytes (imageFormat a path) bytes = .ok image →
      ∃ m, (Machine.fresh (.console (.ofText text))).load image = .ok m ∧
        Tells m budget.toNat (run files terminal words fuel)) ∧
    ∃ code, (run files terminal words fuel).ending = .exit code ∧ code ∈ [0, 3, 4, 100] := by
  rcases Image.ofBytes_cases hreadable with ⟨image, hi⟩ | ⟨e, he⟩
  · obtain ⟨m, s, result, hload, hsafe, hrunning, hchannel, hrun, hlast, hends⟩ :=
      h.exists_run hi hfuel
    obtain ⟨htells, code, hcode, hmem⟩ := finish_tells hsafe hrunning hchannel hfuel hends hlast
    rw [← hrun] at htells hcode
    refine ⟨?_, fun image' hi' => ?_, code, hcode, ?_⟩
    · -- exit code 4 is not among the codes after a run
      rw [hcode, hi, Ending.exit.injEq]
      constructor
      · rintro rfl
        exact absurd hmem (by decide)
      · rintro ⟨e, he⟩
        cases he
    · rw [hi] at hi'
      cases hi'
      exact ⟨m, hload, htells⟩
    · simp only [List.mem_cons, List.not_mem_nil, or_false] at hmem ⊢
      omega
  · have hfour := h.ending_of_image_error he fuel
    refine ⟨⟨fun _ => ⟨e, he⟩, fun _ => hfour⟩, fun image hi => ?_, 4, hfour, by decide⟩
    rw [he] at hi
    cases hi

/-- A letter is written before an unknown instruction is found, in a binary image that has the name
of a text and is executed with a budget of five instructions. -/
theorem exit_codes_of_letter : ∃ (files : Files) (words : List String) (a : Options.Arguments),
    files = (FileTree.ofFiles [("p.txt", [19, 0, 65, 0, 22, 0])]).access ∧
      words = ["-v", "--max-steps", "5", "--binary", "p.txt"] ∧
      Asks files (.ofText "") words a 5 "p.txt" [19, 0, 65, 0, 22, 0] "" ∧
      Image.Readable (imageFormat a "p.txt") [19, 0, 65, 0, 22, 0] ∧ (5 : Int) ≤ (8 : Nat) ∧
      (run files (.ofText "") words 8).ending ≠ .exit 4 ∧
      ∃ m, (Machine.fresh (.console (.ofText ""))).load [19, 65, 22] = .ok m ∧
        Tells m 5 (run files (.ofText "") words 8) := by
  generalize hfiles : (FileTree.ofFiles [("p.txt", [19, 0, 65, 0, 22, 0])]).access = files
  generalize hwords : ["-v", "--max-steps", "5", "--binary", "p.txt"] = words
  generalize ha : Options.Arguments.mk
    [⟨"--verbose", ""⟩, ⟨"--max-steps", "5"⟩, ⟨"--binary", ""⟩] ["p.txt"] = a
  have hasks : Asks files (.ofText "") words a 5 "p.txt" [19, 0, 65, 0, 22, 0] "" := by
    subst hfiles hwords ha
    exact {
      options := by decide
      no_help := by decide
      budget := by decide
      no_time := by decide
      no_configuration := by decide
      operands := rfl
      image := rfl
      input := .terminal rfl }
  have hformat : imageFormat a "p.txt" = .binary := by
    subst ha
    decide
  have hreadable : Image.Readable (imageFormat a "p.txt") [19, 0, 65, 0, 22, 0] := by
    rw [hformat]
    nofun
  have himage : Image.ofBytes (imageFormat a "p.txt") [19, 0, 65, 0, 22, 0] = .ok [19, 65, 22] := by
    rw [hformat]
    rfl
  obtain ⟨hfour, hloaded, -⟩ := exit_codes hasks hreadable (show (5 : Int) ≤ (8 : Nat) by decide)
  refine ⟨files, words, a, rfl, rfl, hasks, hreadable, by decide, ?_, hloaded _ himage⟩
  rw [Ne, hfour, himage]
  rintro ⟨e, he⟩
  cases he

end Execute

end Command

end WordMachine
