/-
  Terminals and recorded input.

  A terminal and a buffer match when the same codes are left to read and the same words have been
  written.  Machines that hold the same words and are connected to devices that match do the same:
  a step has the same result on both, and leaves machines that match (`Matches.step`).  So a program
  cannot tell which of the two devices it runs on (`terminal_matches_buffer`), and on the terminal
  everything that it has written can be seen whenever it reads.
-/
import WordMachine.Proofs.Atomicity
import WordMachine.Proofs.FaultSafety

namespace WordMachine

/-! ### Terminals -/

namespace Console

/-- Everything that has been written can be seen: a flush follows each write. -/
def Flushed (c : Console) : Prop :=
  ∀ before point after, c.events.toList = before ++ .write point :: after → .flush ∈ after

theorem flushed_flush (c : Console) : c.flush.Flushed := by
  intro before point after h
  have hevents : c.events.toList ++ [.flush] = before ++ .write point :: after := by
    rw [← h, flush, record, Array.toList_push]
  have hlast := congrArg List.getLast? hevents
  rw [List.getLast?_concat, List.getLast?_append, List.getLast?_cons, Option.some_or,
    Option.some.injEq] at hlast
  -- the last event is a flush, so it is not the write itself
  cases hafter : after.getLast? with
  | none =>
    rw [hafter] at hlast
    cases hlast
  | some event =>
    rw [hafter] at hlast
    cases hlast
    exact List.mem_of_getLast? hafter

theorem written_write (c : Console) (point : Nat) :
    (c.write point).written = c.written ++ [point] := by
  have hrecord : (c.record (.write point)).written = c.written ++ [point] := by
    simp [written, record]
  unfold write
  dsimp only
  split
  · rw [written_flush, hrecord]
  · exact hrecord

theorem input_write (c : Console) (point : Nat) : (c.write point).input = c.input := by
  unfold write
  dsimp only
  split <;> rfl

theorem ending_write (c : Console) (point : Nat) : (c.write point).ending = c.ending := by
  unfold write
  dsimp only
  split <;> rfl

/-- A terminal and a buffer **match** when the same codes are left to read, which are all that the
terminal will ever get, and the same codes have been written, which are words. -/
structure Matches (c : Console) (b : Buffer) : Prop where
  closed : c.ending = .closed
  unread : b.unread = c.input.map fun char => (char.toNat : Int)
  output : b.output.toList = c.written.map fun point : Nat => (point : Int)
  words : ∀ code ∈ b.output.toList, Word.IsWord code

theorem matches_ofText (text : String) : (ofText text).Matches (.ofText text) where
  closed := rfl
  unread := by simp [Buffer.unread, Buffer.ofText, Buffer.ofCodes, ofText]
  output := rfl
  words code hcode := absurd hcode List.not_mem_nil

variable {c : Console} {b : Buffer}

theorem Matches.text (h : c.Matches b) : b.text = .ok c.text := by
  have hpoints : b.output.toList.map Int.toNat = c.written := by
    rw [h.output, List.map_map]
    exact List.map_id c.written
  rw [Buffer.text, Character.text_of_words h.words, hpoints, c.text_eq]

theorem Matches.flush (h : c.Matches b) : c.flush.Matches b where
  closed := h.closed
  unread := h.unread
  output := by rw [written_flush, h.output]
  words := h.words

theorem Matches.next? (h : c.Matches b) : c.next? = some b.next? := by
  rw [Buffer.next?_eq_head?_unread, h.unread, Console.next?, h.closed]
  cases c.input <;> rfl

theorem Matches.advance (h : c.Matches b) : c.advance.Matches b.advance where
  closed := h.closed
  unread := by rw [Buffer.unread_advance, h.unread, ← List.map_tail, Console.advance]
  output := h.output
  words := h.words

theorem Matches.write (h : c.Matches b) {code : Int} (hcode : Word.IsWord code) :
    (c.write code.toNat).Matches (b.write code) where
  closed := by rw [ending_write, h.closed]
  unread := by
    rw [input_write]
    exact h.unread
  output := by
    rw [written_write, List.map_append, ← h.output, Buffer.write, Array.toList_push,
      List.map_singleton, Int.toNat_of_nonneg hcode.1]
  words := by
    rw [Buffer.write, Array.toList_push]
    intro other hother
    rcases List.mem_append.mp hother with hold | hnew
    · exact h.words other hold
    · rwa [List.mem_singleton.mp hnew]

end Console

/-! ### Devices -/

namespace Channel

/-- Two devices **match** when the first is a terminal, the second is a buffer, and these match. -/
inductive Matches : Channel → Channel → Prop
  | console {c : Console} {b : Buffer} (h : c.Matches b) : Matches (.console c) (.buffer b)

variable {channel other : Channel}

theorem Matches.prepare (h : channel.Matches other) : channel.prepare.Matches other.prepare := by
  obtain ⟨h⟩ := h
  exact ⟨h.flush⟩

theorem Matches.next? (h : channel.Matches other) : other.next? = channel.next? := by
  obtain ⟨h⟩ := h
  simp only [Channel.next?, h.next?]

theorem Matches.accepts (h : channel.Matches other) {code : Int} (hcode : Word.IsWord code) :
    other.accepts code = channel.accepts code := by
  obtain ⟨h⟩ := h
  simp only [Channel.accepts, Character.ofCode_of_isWord hcode]

theorem Matches.advance (h : channel.Matches other) : channel.advance.Matches other.advance := by
  obtain ⟨h⟩ := h
  exact ⟨h.advance⟩

theorem Matches.emit (h : channel.Matches other) {code : Int} (hcode : Word.IsWord code) :
    (channel.emit code).Matches (other.emit code) := by
  obtain ⟨h⟩ := h
  exact ⟨h.write hcode⟩

end Channel

/-! ### Machines -/

namespace Machine

/-- The machine connected to another device. -/
def connect (m : Machine) (channel : Channel) : Machine := { m with channel := channel }

/-- Two machines **match** when they hold the same words and differ at most in their devices, which
match. -/
structure Matches (m m' : Machine) : Prop where
  words : m.HoldsWords
  same : m' = m.connect m'.channel
  channel : m.channel.Matches m'.channel

variable {m : Machine} {other : Channel}

theorem fail_connect (m : Machine) (other : Channel) (e : StepError) :
    (m.connect other).fail e = (m.fail e).connect other := by
  cases e <;> rfl

theorem prepare_connect (m : Machine) (other : Channel) (i : Instruction) :
    (m.connect other).prepare i =
      (m.prepare i).connect (if i.readsInput then other.prepare else other) := rfl

theorem matches_prepare (h : m.channel.Matches other) (i : Instruction) :
    (m.prepare i).channel.Matches (if i.readsInput then other.prepare else other) := by
  rw [channel_prepare_eq]
  split
  · exact h.prepare
  · exact h

/-- An instruction passes the same checks on both machines, and fails with the same error. -/
theorem effect_connect (hwords : m.HoldsWords) (h : m.channel.Matches other) (i : Instruction) :
    (m.connect other).effect i = m.effect i := by
  -- only two instructions look at the device
  cases i with
  | output source =>
    have hsource : (m.connect other).source source = m.source source := rfl
    have haccepts : (m.connect other).channel.accepts = other.accepts := rfl
    cases hx : m.source source with
    | error e => simp only [effect, hsource, hx, bind, Except.bind]
    | ok x =>
      have hword := hwords.value (source_eq_ok_iff.mp hx)
      simp only [effect, hsource, hx, Check.ok_bind]
      rw [← h.accepts hword]
      rfl
  | input target =>
    simp only [effect, ← h.next?]
    rfl
  | _ => rfl

theorem Performs.connect {i : Instruction} {e : Effect} (he : m.Performs i e)
    (hwords : m.HoldsWords) (h : m.channel.Matches other) : ∃ after,
      (m.connect other).complete e = (m.complete e).connect after ∧
        (m.complete e).channel.Matches after := by
  cases he with
  | output hx => exact ⟨other.emit _, rfl, h.emit (hwords.value hx)⟩
  | input hr hcode => exact ⟨other.advance, rfl, h.advance⟩
  | _ => exact ⟨other, rfl, h⟩

/-- **A step of machines that match** has the same result on both and leaves machines that match. -/
theorem Matches.step {m' : Machine} (h : m.Matches m') :
    m'.step.2 = m.step.2 ∧ m.step.1.Matches m'.step.1 := by
  obtain ⟨hwords, hsame, hchannel⟩ := h
  have hnext := step_holdsWords hwords
  generalize m'.channel = other at hsame hchannel
  subst hsame
  have heffect : ∀ i, ((m.connect other).prepare i).effect i = (m.prepare i).effect i := fun i =>
    effect_connect (hwords.prepare i) (matches_prepare hchannel i) i
  rcases m.step_cases with
    ⟨hrun, hs⟩ | ⟨fault, hrun, hi, hs⟩ | ⟨i, e, hrun, hi, he, hs⟩ | ⟨i, e, hrun, hi, he, hs⟩
  · have hs' : (m.connect other).step = (m.connect other, .ignored) := step_of_not_running hrun
    rw [hs] at hnext ⊢
    rw [hs']
    exact ⟨rfl, hnext, rfl, hchannel⟩
  · have hs' := step_of_fetch_eq_error (m := m.connect other) hrun hi
    rw [fail_connect] at hs'
    rw [hs] at hnext ⊢
    rw [hs']
    exact ⟨rfl, hnext, rfl, by rwa [channel_fail]⟩
  · have hs' := step_of_effect_eq_error (m := m.connect other) hrun hi ((heffect i).trans he)
    rw [prepare_connect, fail_connect] at hs'
    rw [hs] at hnext ⊢
    rw [hs']
    refine ⟨rfl, hnext, rfl, ?_⟩
    rw [channel_fail]
    exact matches_prepare hchannel i
  · have he' : ((m.connect other).prepare i).Performs i e := by
      rw [← effect_eq_ok_iff, heffect i]
      exact effect_eq_ok_of_performs he
    have hs' := step_of_performs (m := m.connect other) hrun hi he'
    obtain ⟨after, hcomplete, hafter⟩ :=
      he.connect (hwords.prepare i) (matches_prepare hchannel i)
    rw [prepare_connect, hcomplete] at hs'
    rw [hs] at hnext ⊢
    rw [hs']
    exact ⟨rfl, hnext, rfl, hafter⟩

theorem Matches.exists_devices {m' : Machine} (h : m.Matches m') : ∃ c b,
    m.channel = .console c ∧ m' = m.connect (.buffer b) ∧ c.Matches b := by
  obtain ⟨-, hsame, hchannel⟩ := h
  generalize hc : m.channel = channel at hchannel
  generalize m'.channel = other at hsame hchannel
  obtain ⟨hdevices⟩ := hchannel
  exact ⟨_, _, rfl, hsame, hdevices⟩

/-- **Machines that match still do so after any number of steps.** -/
theorem Matches.after {m' : Machine} (h : m.Matches m') (n : Nat) :
    (m.after n).Matches (m'.after n) := by
  induction n with
  | zero => exact h
  | succ n ih => exact ih.step.2

/-! ### Reads -/

/-- `m.Reads r` says that the next step of the machine reads from the terminal `r`: the instruction
puts a character into a register, and it finds the terminal like this when it looks for one. -/
structure Reads (m : Machine) (r : Console) : Prop where
  running : m.status = .running
  input : ∃ target, m.fetch = .ok (.input target) ∧ target.isRegister ∧
    (m.prepare (.input target)).channel = .console r

/-- **A terminal is flushed before it is read**, and nothing is written in between. -/
theorem Reads.flushed {r c : Console} (h : m.Reads r) (hc : m.channel = .console c) :
    r.Flushed ∧ r.written = c.written := by
  obtain ⟨target, -, hregister, hr⟩ := h.input
  rw [m.channel_prepare_input hregister, hc] at hr
  cases hr
  exact ⟨c.flushed_flush, c.written_flush⟩

/-- A read takes a character from the terminal or leaves it as it is. -/
theorem Reads.channel_step {r : Console} (h : m.Reads r) :
    m.step.1.channel = .console r ∨ m.step.1.channel = .console r.advance := by
  obtain ⟨hrun, target, hi, -, hr⟩ := h
  rcases m.step_cases with
    ⟨hnot, -⟩ | ⟨_, -, hf, -⟩ | ⟨i, e, -, hi', -, hs⟩ | ⟨i, e, -, hi', he, hs⟩
  · contradiction
  · rw [hi] at hf
    cases hf
  · obtain rfl : i = .input target := Except.ok.inj (hi'.symm.trans hi)
    rw [hs, channel_fail]
    exact .inl hr
  · obtain rfl : i = .input target := Except.ok.inj (hi'.symm.trans hi)
    cases he with
    | combine hf => cases hf
    | input =>
      right
      rw [hs]
      show (m.prepare (.input target)).channel.advance = .console r.advance
      rw [hr]
      rfl

theorem exists_reads {target : Operand} {c : Console} (hrun : m.status = .running)
    (hi : m.fetch = .ok (.input target)) (hregister : target.isRegister)
    (hc : m.channel = .console c) : ∃ r, m.Reads r := by
  refine ⟨c.flush, hrun, target, hi, hregister, ?_⟩
  rw [m.channel_prepare_input hregister, hc]
  rfl

/-- Only a read takes a character. -/
theorem reads_of_input_ne {c c' : Console} (hc : m.channel = .console c)
    (hc' : m.step.1.channel = .console c') (hne : c'.input ≠ c.input) : ∃ r, m.Reads r := by
  have hrun : m.status = .running := by
    by_contra hnot
    rw [step_of_not_running hnot] at hc'
    obtain rfl : c = c' := Channel.console.inj (hc.symm.trans hc')
    exact hne rfl
  rcases m.channel_step with hs | hs | ⟨_, code, -, -, hs⟩ | ⟨target, _, hi, hregister, -, -⟩
  · rw [hs, hc] at hc'
    cases hc'
    exact absurd rfl hne
  · rw [hs, hc] at hc'
    cases hc'
    exact absurd rfl hne
  · rw [hs, hc] at hc'
    cases hc'
    exact absurd (c.input_write code.toNat) hne
  · exact exists_reads hrun hi hregister hc

/-- The next step reads into a register. -/
def ReadsRegister (m : Machine) : Prop :=
  m.status = .running ∧ ∃ target, m.fetch = .ok (.input target) ∧ target.isRegister

/-- **When the end of the input is found**: a register is to be read into, and there is no code
left. -/
theorem step_exhausted_iff : m.step.2 = .failed (m.blame .inputExhausted) ↔
    m.ReadsRegister ∧ m.channel.prepare.next? = .ok none := by
  constructor
  · intro h
    obtain ⟨hrun, ⟨fault, hfetch, hfault, -⟩ | ⟨i, hi, he, -⟩⟩ := step_failed h
    · cases hfault
      rcases fault_of_fetch hfetch with ⟨_, hother⟩ | ⟨_, hother⟩
      · cases hother
      · cases hother
    · generalize hexhausted : m.blame .inputExhausted = e at he
      cases refuses_of_effect_eq_error he with
      | fault _ hfault =>
        cases hexhausted
        exact absurd rfl hfault
      | @exhausted target hregister hcode =>
        rw [m.channel_prepare_input hregister] at hcode
        exact ⟨⟨hrun, target, hi, hregister⟩, hcode⟩
      | _ => cases hexhausted
  · rintro ⟨⟨hrun, target, hi, hregister⟩, hcode⟩
    rw [← m.channel_prepare_input hregister] at hcode
    cases target with
    | register index =>
      have he : (m.prepare (.input (.register index))).effect (.input (.register index)) =
          .error (m.blame .inputExhausted) := by
        simp only [effect, hcode]
        rfl
      rw [step_of_effect_eq_error hrun hi he]
    | literal value => cases hregister
    | invalid raw => cases hregister

/-- Only a read finds the end of the input. -/
theorem reads_of_exhausted {c : Console} (hc : m.channel = .console c)
    (h : m.step.2 = .failed (m.blame .inputExhausted)) : ∃ r, m.Reads r := by
  obtain ⟨⟨hrun, target, hi, hregister⟩, -⟩ := step_exhausted_iff.mp h
  exact exists_reads hrun hi hregister hc

/-! ### Interchangeability -/

/-- Fresh machines with the same memory match when their devices do. -/
theorem matches_fresh (memory : Memory 32768) {channel other : Channel}
    (h : channel.Matches other) :
    Matches { fresh channel with memory := memory } { fresh other with memory := memory } where
  words := by
    have hpresets : ∀ entry ∈ ([] : List (Int × Int)), Word.IsWord entry.2 :=
      fun _ hentry => absurd hentry List.not_mem_nil
    exact preset_holdsWords channel memory hpresets
  same := rfl
  channel := h

/-- **Terminals and buffers are interchangeable.**  An image and a text are given to two fresh
machines, one on a terminal and one on a buffer.  Each step then has the same result on both, with
the same error if it fails; in front of it the machines differ in nothing but their devices, and
what has been written to these is the same text.  When a step reads from the terminal, everything
that has been written can be seen, and nothing but such a step takes a character or finds the end of
the input. -/
theorem terminal_matches_buffer {image : List Int} (himage : Image.Loadable image)
    (text : String) : ∃ m m', (fresh (.console (.ofText text))).load image = .ok m ∧
      (fresh (.buffer (.ofText text))).load image = .ok m' ∧ ∀ n,
        (m'.after n).step.2 = (m.after n).step.2 ∧
        ∃ c b, (m.after n).channel = .console c ∧ m'.after n = (m.after n).connect (.buffer b) ∧
          b.text = .ok c.text ∧
          (∀ r, (m.after n).Reads r → r.Flushed ∧ r.written = c.written ∧
            ((m.after (n + 1)).channel = .console r ∨
              (m.after (n + 1)).channel = .console r.advance)) ∧
          ((m.after n).step.2 = .failed ((m.after n).blame .inputExhausted) ∨
              (∃ c', (m.after (n + 1)).channel = .console c' ∧ c'.input ≠ c.input) →
            ∃ r, (m.after n).Reads r) := by
  obtain ⟨memory, -, hload⟩ := exists_load_fresh himage
  refine ⟨_, _, hload _, hload _, fun n => ?_⟩
  have hfirst := matches_fresh memory ⟨Console.matches_ofText text⟩
  have hmatches := hfirst.after n
  obtain ⟨c, b, hc, hb, hdevices⟩ := hmatches.exists_devices
  refine ⟨hmatches.step.1, c, b, hc, hb, hdevices.text, fun r hr => ?_, ?_⟩
  · obtain ⟨hflushed, hwritten⟩ := hr.flushed hc
    exact ⟨hflushed, hwritten, hr.channel_step⟩
  · rintro (hexhausted | ⟨c', hc', hne⟩)
    · exact reads_of_exhausted hc hexhausted
    · exact reads_of_input_ne hc hc' hne

/-- A program that writes a question mark and then reads, at the end of the input. -/
theorem terminal_matches_buffer_of_prompt : Image.Loadable [19, 63, 20, 32768] ∧
    ∃ m m', (fresh (.console (.ofText ""))).load [19, 63, 20, 32768] = .ok m ∧
      (fresh (.buffer (.ofText ""))).load [19, 63, 20, 32768] = .ok m' ∧
      (m.after 1).step.2 = .failed (.fault ⟨.inputExhausted, 2⟩) ∧
      (m'.after 1).step.2 = .failed (.fault ⟨.inputExhausted, 2⟩) ∧
      ∃ b r, (m'.after 1).channel = .buffer b ∧ b.text = .ok "?" ∧
        (m.after 1).Reads r ∧ r.Flushed ∧ r.written = [63] := by
  have himage : Image.Loadable [19, 63, 20, 32768] := by decide
  obtain ⟨m, m', hm, hm', hruns⟩ := terminal_matches_buffer himage ""
  refine ⟨himage, m, m', hm, hm', ?_⟩
  obtain ⟨hresult, c, b, hc, hb, htext, hreads, -⟩ := hruns 1
  obtain ⟨hload, hrun, hpc, -, hchannel⟩ := starts_of_load hm
  clear hm hruns
  have houtput : m.fetch = .ok (.output (.literal 63)) :=
    fetch_of_image hload (a := 0) hpc (by decide) rfl rfl
  have haccepts : (m.prepare (.output (.literal 63))).channel.accepts 63 = .ok () := by
    rw [channel_prepare_eq, hchannel]
    rfl
  have hstep := step_of_performs hrun houtput (.output rfl haccepts)
  -- the machine in front of the read
  obtain ⟨hload1, hrun1, hpc1, hchannel1⟩ : (m.after 1).memory = m.memory ∧
      (m.after 1).status = .running ∧ (m.after 1).pc = 2 ∧
      (m.after 1).channel = .console ⟨[], .closed, #[.write 63]⟩ := by
    rw [after_succ, after_zero, hstep]
    refine ⟨rfl, hrun, ?_, ?_⟩
    · show m.pc + 2 = 2
      rw [hpc]
      rfl
    · show m.channel.emit 63 = _
      rw [hchannel]
      rfl
  have hinput : (m.after 1).fetch = .ok (.input (.register 0)) :=
    fetch_of_image (a := 2) (by rwa [hload1]) hpc1 (by decide) rfl rfl
  obtain ⟨r, hr⟩ := exists_reads hrun1 hinput rfl hchannel1
  obtain ⟨hflushed, hwritten, -⟩ := hreads r hr
  rw [hchannel1] at hc
  cases hc
  have hend : ((m.after 1).prepare (.input (.register 0))).channel.next? = .ok none := by
    rw [channel_prepare_eq, hchannel1]
    rfl
  have hfails : ((m.after 1).prepare (.input (.register 0))).effect (.input (.register 0)) =
      .error (.fault ⟨.inputExhausted, 2⟩) := by
    rw [← hpc1]
    simp only [effect, hend]
    rfl
  have hlast : (m.after 1).step.2 = .failed (.fault ⟨.inputExhausted, 2⟩) := by
    rw [step_of_effect_eq_error hrun1 hinput hfails]
  exact ⟨hlast, hresult.trans hlast, b, r, by rw [hb]; rfl, htext, hr, hflushed, hwritten⟩

end Machine

end WordMachine
