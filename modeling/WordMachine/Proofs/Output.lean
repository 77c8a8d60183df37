/-
  What a program reads and writes.

  A step writes the operand of an output instruction that it completes, and puts a word into a
  register for an input instruction.  The codes that are written by a number of steps are one for
  each completed output instruction (`Machine.writtenBy`, `Machine.length_writtenBy`), and the words
  that are stored are one for each completed input instruction (`Machine.length_storedBy`).  A
  terminal shows exactly the codes that are written, in order, however the steps end
  (`Machine.exists_console_after`).
-/
import WordMachine.Proofs.FaultSafety
import WordMachine.Proofs.Terminals

namespace WordMachine

/-- The character that is written for a word has this word as its code. -/
theorem Character.toNat_ofNat_of_isWord {code : Int} (h : Word.IsWord code) :
    ((Char.ofNat code.toNat).toNat : Int) = code := by
  have hlower := h.1
  have hupper := h.2
  have hvalid : code.toNat.isValidChar := .inl (by omega)
  rw [Char.ofNat, dif_pos hvalid]
  show (code.toNat : Int) = code
  omega

namespace Machine

/-! ### One step -/

/-- The code that the next step writes, if it completes an output instruction. -/
def written? (m : Machine) : Option Int :=
  match m.step.2, m.fetch with
  | .completed, .ok (.output source) => (m.value source).toOption
  | _, _ => none

/-- The word that the next step puts into a register, if it completes an input instruction. -/
def stored? (m : Machine) : Option Int :=
  match m.step.2, m.fetch with
  | .completed, .ok (.input target) => (m.step.1.value target).toOption
  | _, _ => none

variable {m : Machine}

theorem written?_of_executes (h : m.executes .output = false) : m.written? = none := by
  unfold written?
  split
  · rename_i hdone hi
    rw [executes_of_completed hdone hi] at h
    contradiction
  · rfl

theorem stored?_of_executes (h : m.executes .input = false) : m.stored? = none := by
  unfold stored?
  split
  · rename_i hdone hi
    rw [executes_of_completed hdone hi] at h
    contradiction
  · rfl

/-- A completed output instruction writes one code. -/
theorem length_written? (m : Machine) :
    m.written?.toList.length = (m.executes .output).toNat := by
  cases m.moves_step with
  | write hdone hi hcode hchannel =>
    rw [executes_of_completed hdone hi]
    simp only [written?, hdone, hi, hcode]
    rfl
  | read hdone hi hregister hcode hstored hchannel =>
    have hout : m.executes .output = false := executes_of_completed hdone hi _
    rw [written?_of_executes hout, hout]
    rfl
  | rest hout hin hchannel =>
    rw [written?_of_executes hout, hout]
    rfl

/-- A completed input instruction stores one word. -/
theorem length_stored? (m : Machine) : m.stored?.toList.length = (m.executes .input).toNat := by
  cases m.moves_step with
  | write hdone hi hcode hchannel =>
    have hin : m.executes .input = false := executes_of_completed hdone hi _
    rw [stored?_of_executes hin, hin]
    rfl
  | read hdone hi hregister hcode hstored hchannel =>
    rw [executes_of_completed hdone hi]
    simp only [stored?, hdone, hi, hstored]
    rfl
  | rest hout hin hchannel =>
    rw [stored?_of_executes hin, hin]
    rfl

/-! ### Any number of steps -/

/-- How many of a number of steps complete an instruction with this operation. -/
def executed (m : Machine) (op : Opcode) (n : Nat) : Nat :=
  (List.range n).countP fun k => (m.after k).executes op

/-- The codes that are written by a number of steps, in order. -/
def writtenBy (m : Machine) (n : Nat) : List Int :=
  (List.range n).filterMap fun k => (m.after k).written?

/-- The words that a number of steps put into registers by input instructions, in order. -/
def storedBy (m : Machine) (n : Nat) : List Int :=
  (List.range n).filterMap fun k => (m.after k).stored?

theorem executed_succ (m : Machine) (op : Opcode) (n : Nat) :
    m.executed op (n + 1) = m.executed op n + ((m.after n).executes op).toNat := by
  unfold executed
  rw [List.range_succ, List.countP_append, List.countP_singleton]
  cases (m.after n).executes op <;> rfl

theorem filterMap_range_succ {α : Type} (f : Nat → Option α) (n : Nat) :
    (List.range (n + 1)).filterMap f = (List.range n).filterMap f ++ (f n).toList := by
  rw [List.range_succ, List.filterMap_append]
  cases h : f n <;> simp [h]

theorem writtenBy_succ (m : Machine) (n : Nat) :
    m.writtenBy (n + 1) = m.writtenBy n ++ (m.after n).written?.toList :=
  filterMap_range_succ _ n

theorem storedBy_succ (m : Machine) (n : Nat) :
    m.storedBy (n + 1) = m.storedBy n ++ (m.after n).stored?.toList :=
  filterMap_range_succ _ n

/-- One code is written for every completed output instruction. -/
theorem length_writtenBy (m : Machine) (n : Nat) :
    (m.writtenBy n).length = m.executed .output n := by
  induction n with
  | zero => rfl
  | succ n ih => rw [writtenBy_succ, List.length_append, ih, length_written?, executed_succ]

/-- One word is stored for every completed input instruction. -/
theorem length_storedBy (m : Machine) (n : Nat) :
    (m.storedBy n).length = m.executed .input n := by
  induction n with
  | zero => rfl
  | succ n ih => rw [storedBy_succ, List.length_append, ih, length_stored?, executed_succ]

/-- **A terminal shows what has been written** in front of a number of steps and then what these
steps write, in order, whether or not the machine is stopped on the way. -/
theorem exists_console_after {c : Console} (h : m.channel = .console c) (n : Nat) :
    ∃ c', (m.after n).channel = .console c' ∧
      c'.written = c.written ++ (m.writtenBy n).map Int.toNat := by
  induction n with
  | zero => exact ⟨c, h, (List.append_nil _).symm⟩
  | succ n ih =>
    obtain ⟨c', hc', hwritten⟩ := ih
    rw [writtenBy_succ, after_succ, List.map_append, ← List.append_assoc, ← hwritten]
    cases (m.after n).moves_step with
    | @write source code hdone hi hcode hchannel =>
      simp only [written?, hdone, hi, hcode]
      rw [hchannel, hc']
      exact ⟨c'.write code.toNat, rfl, c'.written_write code.toNat⟩
    | read hdone hi hregister hcode hstored hchannel =>
      simp only [written?, hdone, hi]
      rw [hchannel, hc']
      refine ⟨c'.flush.advance, rfl, ?_⟩
      show c'.flush.written = _
      rw [Console.written_flush]
      exact (List.append_nil _).symm
    | rest hout hin hchannel =>
      rw [written?_of_executes hout]
      rcases hchannel with hchannel | hchannel
      · rw [hchannel, hc']
        exact ⟨c', rfl, (List.append_nil _).symm⟩
      · rw [hchannel, hc']
        refine ⟨c'.flush, rfl, ?_⟩
        rw [Console.written_flush]
        exact (List.append_nil _).symm

/-- A safe machine writes words. -/
theorem Safe.writtenBy_isWord (h : m.Safe) (n : Nat) : ∀ code ∈ m.writtenBy n, Word.IsWord code := by
  intro code hcode
  obtain ⟨k, -, hk⟩ := List.mem_filterMap.mp hcode
  cases (m.after k).moves_step with
  | @write source code' hdone hi hvalue hchannel =>
    simp only [written?, hdone, hi, hvalue] at hk
    obtain rfl := Option.some.inj hk
    exact (h.after k).words.value hvalue
  | read hdone hi hregister hcode hstored hchannel =>
    simp only [written?, hdone, hi] at hk
    contradiction
  | rest hout hin hchannel =>
    rw [written?_of_executes hout] at hk
    contradiction

end Machine

end WordMachine
