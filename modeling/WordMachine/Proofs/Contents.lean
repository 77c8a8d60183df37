/-
  What registers and stack hold.

  The values that instructions move come out of registers and stack, or they are words, or they are
  obtained by flipping the bits of a word.  So a property of integers that all words have and that
  flipping does not destroy (`Word.Stable`) is kept by every step (`Holds.step`).

  One such property is to lie between a multiple of the modulus and its opposite.  So the integers
  that a host program has put into a machine set the range that the machine does not leave, and no
  number that it can show gets much longer than these (`shown_after`).
-/
import Mathlib.Algebra.Ring.Nat
import WordMachine.Proofs.Fetch
import WordMachine.Proofs.Runs

namespace WordMachine

namespace Word

/-! ### Words -/

theorem zero_isWord : IsWord 0 := by decide

theorem one_isWord : IsWord 1 := by decide

theorem fin_isWord (i : Fin 32768) : IsWord i.val := by
  have := i.isLt
  constructor <;> omega

/-- A property of integers is **stable** when all words have it and flipping the bits of a word
keeps it. -/
structure Stable (P : Int → Prop) : Prop where
  /-- Words have the property. -/
  word : ∀ x, IsWord x → P x
  /-- Flipping keeps the property. -/
  flip : ∀ x, P x → P (TwosComplement.exclusive x mask)

end Word

theorem Opcode.width_le (op : Opcode) : op.width ≤ 4 := by
  cases op <;> decide

/-- Whatever combines two operands gives a word, for all integers in them. -/
theorem Instruction.Combines.isWord {instruction : Instruction} {target left right : Operand}
    {f : Int → Int → Int} (hf : instruction.Combines target left right f) (x y : Int) :
    Word.IsWord (f x y) := by
  cases hf with
  | equal | greater =>
    dsimp only
    split
    · exact Word.one_isWord
    · exact Word.zero_isWord
  | add | multiply | and | or => exact Word.reduce_isWord _

/-! ### Contents -/

/-- All registers and all stack items of a machine have a property. -/
structure Machine.Holds (P : Int → Prop) (m : Machine) : Prop where
  /-- The registers have it. -/
  register : ∀ i, P (m.registers.get i)
  /-- The items of the stack have it. -/
  item : ∀ x ∈ m.stack.items, P x

/-- All values that an effect moves have a property. -/
def Effect.Carries (P : Int → Prop) : Effect → Prop
  | .halt | .nothing => True
  | .assign _ x | .push x | .pop _ x | .jump x | .ret x | .emit x | .consume _ x => P x
  | .call back target => P back ∧ P target
  | .store _ cell => P cell.toNat

namespace Machine

variable {m : Machine} {P : Int → Prop}

/-- Operands are words or registers. -/
theorem Holds.value (hP : Word.Stable P) (h : m.Holds P) {operand : Operand} {x : Int}
    (hx : m.value operand = .ok x) : P x := by
  cases operand with
  | literal value =>
    cases hx
    exact hP.word _ (Word.fin_isWord value)
  | register index =>
    cases hx
    exact h.register index
  | invalid raw => cases hx

/-- **What instructions move**: on a machine whose registers and stack items have a stable property,
every effect carries values that have it. -/
theorem Holds.carries (hP : Word.Stable P) (h : m.Holds P) {i : Instruction} {e : Effect}
    (he : m.Performs i e) : e.Carries P := by
  cases he with
  | halt | noop | jumpIfPassed | jumpUnlessPassed => trivial
  | set hx | push hx | jump hx | jumpIfTaken _ _ hx | jumpUnlessTaken _ hx | output hx =>
    exact h.value hP hx
  | pop _ hx | ret hx => exact h.item _ (by rw [hx]; exact List.mem_cons_self)
  | combine hf => exact hP.word _ (hf.isWord _ _)
  | modulo | readCell | input => exact hP.word _ (Word.reduce_isWord _)
  | not hx => exact hP.flip _ (h.value hP hx)
  | writeCell _ hx => exact h.value hP hx
  | call back hx => exact ⟨hP.word _ (Word.fin_isWord back), h.value hP hx⟩

theorem Holds.assign (h : m.Holds P) (i : Fin 8) {x : Int} (hx : P x) (j : Fin 8) :
    P ((m.registers.set i x).get j) := by
  by_cases hij : i = j
  · subst hij
    rwa [Registers.get_set_self]
  · rw [Registers.get_set_of_ne _ _ hij]
    exact h.register j

/-- What an effect carries is all that is new after it. -/
theorem Holds.apply (h : m.Holds P) {e : Effect} (he : e.Carries P) : (m.apply e).Holds P := by
  have hdrop : ∀ x ∈ m.stack.drop.items, P x :=
    fun x hx => h.item x (List.mem_of_mem_tail hx)
  cases e with
  | halt | nothing | jump target | store a cell | emit code => exact ⟨h.register, h.item⟩
  | assign i x | consume i x => exact ⟨h.assign i he, h.item⟩
  | push x => exact ⟨h.register, List.forall_mem_cons.mpr ⟨he, h.item⟩⟩
  | pop i x => exact ⟨h.assign i he, hdrop⟩
  | call back target => exact ⟨h.register, List.forall_mem_cons.mpr ⟨he.1, h.item⟩⟩
  | ret target => exact ⟨h.register, hdrop⟩

/-- **Every step keeps a stable property of the contents**, completed or not. -/
theorem Holds.step (hP : Word.Stable P) (h : m.Holds P) : m.step.1.Holds P := by
  -- only a completed step changes registers and stack
  rcases m.step_cases with ⟨-, hs⟩ | ⟨fault, -, -, hs⟩ | ⟨i, e, -, -, -, hs⟩ | ⟨i, e, -, -, he, hs⟩
  all_goals rw [hs]
  · exact h
  · exact ⟨by simpa using h.register, by simpa using h.item⟩
  · exact ⟨by simpa using h.register, by simpa using h.item⟩
  · have hready : (m.prepare i).Holds P := ⟨h.register, h.item⟩
    have hdone := hready.apply (hready.carries hP he)
    exact ⟨by simpa using hdone.register, by simpa using hdone.item⟩

end Machine

/-! ### Ranges -/

/-- An integer lies **within** a bound when it is one of the `2 * bound` integers around zero, half
of them negative. -/
def Within (bound : Nat) (x : Int) : Prop := -bound ≤ x ∧ x < bound

/-- Flipping the bits of a word does not leave a block of numbers of the modulus. -/
theorem xor_mask_lt {n bound : Nat} (h : n < bound) (hbound : 32768 ∣ bound) :
    n ^^^ Word.mask < bound := by
  obtain ⟨blocks, rfl⟩ := hbound
  have hblock : (n ^^^ Word.mask) >>> 15 = n >>> 15 := by
    rw [Nat.shiftRight_xor_distrib]
    exact Nat.xor_zero _
  rw [Nat.shiftRight_eq_div_pow, Nat.shiftRight_eq_div_pow] at hblock
  omega

theorem within_stable {bound : Nat} (hbound : 32768 ∣ bound) (hpos : 0 < bound) :
    Word.Stable (Within bound) where
  word x hx := by
    have hle := Nat.le_of_dvd hpos hbound
    obtain ⟨hlower, hupper⟩ := hx
    constructor <;> omega
  flip x hx := by
    obtain ⟨hlower, hupper⟩ := hx
    cases x with
    | ofNat n =>
      rw [Int.ofNat_eq_natCast] at hupper
      have hn := xor_mask_lt (n := n) (by omega) hbound
      show Within bound ((n ^^^ Word.mask : Nat) : Int)
      constructor <;> omega
    | negSucc n =>
      have hn := xor_mask_lt (n := n) (by omega) hbound
      show Within bound (Int.negSucc (n ^^^ Word.mask))
      constructor <;> omega

namespace Machine

variable {m : Machine} {bound : Nat}

/-- A machine **spans** at most a range when its registers, its stack items and its program counter
lie within it. -/
structure Spans (m : Machine) (bound : Nat) : Prop where
  /-- Registers and stack items lie within the range. -/
  contents : m.Holds (Within bound)
  /-- The program counter lies within the range. -/
  pc : Within bound m.pc

/-- **Where execution goes on**: at the same place after a halt, behind the instruction, or at an
address that the effect carries. -/
theorem pc_complete {P : Int → Prop} {i : Instruction} {e : Effect} (he : e.Carries P) :
    ((m.prepare i).complete e).pc = m.pc ∨ ((m.prepare i).complete e).pc = m.pc + i.width ∨
      P ((m.prepare i).complete e).pc := by
  cases e with
  | halt => exact .inl rfl
  | jump target | ret target => exact .inr (.inr he)
  | call back target => exact .inr (.inr he.2)
  | _ => exact .inr (.inl rfl)

/-- An instruction is fetched from an address of the memory. -/
theorem pc_isWord_of_fetch {i : Instruction} (h : m.fetch = .ok i) : Word.IsWord m.pc := by
  obtain ⟨hcode, -⟩ := fetch_eq_ok_iff.mp h
  obtain ⟨a, ha, -⟩ := Memory.read_eq_ok_iff.mp hcode
  rw [ha]
  exact Word.fin_isWord a

/-- **Every step stays in the range.** -/
theorem Spans.step (hbound : 32768 ∣ bound) (hlt : 32768 < bound) (h : m.Spans bound) :
    m.step.1.Spans bound := by
  have hstable := within_stable hbound (by omega)
  refine ⟨h.contents.step hstable, ?_⟩
  rcases m.step_cases with ⟨-, hs⟩ | ⟨fault, -, -, hs⟩ | ⟨i, e, -, -, -, hs⟩ | ⟨i, e, -, hi, he, hs⟩
  all_goals rw [hs]
  · exact h.pc
  · rw [pc_fail]
    exact h.pc
  · rw [pc_fail]
    exact h.pc
  · have hready : (m.prepare i).Holds (Within bound) := ⟨h.contents.register, h.contents.item⟩
    rcases pc_complete (hready.carries hstable he) with hpc | hpc | hpc
    · rw [hpc]
      exact h.pc
    · -- behind an instruction there are at least the words up to twice the modulus
      obtain ⟨hlower, hupper⟩ := pc_isWord_of_fetch hi
      have hwidth := i.opcode.width_le
      have hsame : i.width = i.opcode.width := rfl
      obtain ⟨blocks, rfl⟩ := hbound
      rw [hpc]
      constructor <;> omega
    · exact hpc

/-- The integers that a dump shows, apart from the number of steps. -/
def shown (m : Machine) : List Int := m.pc :: (m.registers.toList ++ m.stack.items)

theorem spans_iff : m.Spans bound ↔ ∀ x ∈ m.shown, Within bound x := by
  have hregisters : (∀ x ∈ m.registers.toList, Within bound x) ↔
      ∀ i, Within bound (m.registers.get i) := by
    constructor
    · intro h i
      exact h _ (Vector.mem_toList_iff.mpr (Vector.getElem_mem i.isLt))
    · intro h x hx
      obtain ⟨i, hi, rfl⟩ := Vector.mem_iff_getElem.mp (Vector.mem_toList_iff.mp hx)
      exact h ⟨i, hi⟩
  rw [shown, List.forall_mem_cons, List.forall_mem_append, hregisters]
  exact ⟨fun h => ⟨h.pc, h.contents.register, h.contents.item⟩,
    fun h => ⟨⟨h.2.1, h.2.2⟩, h.1⟩⟩

/-- **Numbers stay short.**  Where a host program has put integers with at most a certain number of
digits into a machine, no number in it gets greater than the least one with one digit more. -/
theorem shown_after {digits : Nat} (hdigits : 15 ≤ digits)
    (h : ∀ x ∈ m.shown, x.natAbs < 10 ^ digits) (n : Nat) :
    ∀ x ∈ (m.after n).shown, x.natAbs ≤ 10 ^ digits := by
  have hpow : 10 ^ 15 ∣ 10 ^ digits := Nat.pow_dvd_pow 10 hdigits
  have hbound : 32768 ∣ 10 ^ digits := Nat.dvd_trans (by decide) hpow
  have hlt : 32768 < 10 ^ digits :=
    Nat.lt_of_lt_of_le (by decide) (Nat.le_of_dvd (Nat.pow_pos (by decide)) hpow)
  -- from here on the bound is only known to be a large multiple of the modulus
  generalize 10 ^ digits = bound at h hbound hlt ⊢
  have hspans : m.Spans bound := by
    rw [spans_iff]
    intro x hx
    have := h x hx
    constructor <;> omega
  have hlast := after_induction (P := fun m => m.Spans bound)
    (fun _ => Spans.step hbound hlt) hspans n
  intro x hx
  obtain ⟨hlower, hupper⟩ := spans_iff.mp hlast x hx
  omega

end Machine

end WordMachine
