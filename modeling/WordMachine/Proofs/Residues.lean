/-
  Arithmetic on integers that are no words.

  A host program may put any integer into a register.  Sums, products, conjunctions and disjunctions
  see the low 15 bits of such an integer only: reading an integer as a bit vector takes the
  operations on integers to those on vectors (`Instruction.Computes.exists_vector`), so that a result
  which is reduced stays the same when the operands are reduced before.  A complement is not reduced,
  and a remainder is, but after a division of the integers as they are.
  `Machine.arithmetic_of_residues` says what this means for the register that an instruction sets.
-/
import Mathlib.Data.Int.ModEq
import WordMachine.Proofs.Fetch
import WordMachine.Proofs.WordVectors

namespace WordMachine

/-! ### The bits of integers -/

namespace TwosComplement

variable {width : Nat}

theorem ofNat_without (m n : Nat) : BitVec.ofNat width (without m n) =
    BitVec.ofNat width m &&& ~~~BitVec.ofNat width n := by
  rw [without, BitVec.ofNat_xor, BitVec.ofNat_and]
  ext k hk
  simp only [BitVec.getElem_xor, BitVec.getElem_and, BitVec.getElem_not]
  cases (BitVec.ofNat width m)[k] <;> simp

/-! An integer below zero has the bits of its complement, flipped.  So each of the operations is, case
by case, an operation on natural numbers with some bits flipped before or behind it. -/

theorem ofInt_conj (x y : Int) :
    BitVec.ofInt width (conj x y) = BitVec.ofInt width x &&& BitVec.ofInt width y := by
  cases x <;> cases y <;>
    simp only [conj, Int.ofNat_eq_natCast, BitVec.ofInt_natCast, BitVec.ofInt_negSucc_eq_not_ofNat,
      BitVec.ofNat_and, BitVec.ofNat_or, ofNat_without, BitVec.not_or, BitVec.and_comm]

theorem ofInt_disj (x y : Int) :
    BitVec.ofInt width (disj x y) = BitVec.ofInt width x ||| BitVec.ofInt width y := by
  cases x <;> cases y <;>
    simp only [disj, Int.ofNat_eq_natCast, BitVec.ofInt_natCast, BitVec.ofInt_negSucc_eq_not_ofNat,
      BitVec.ofNat_and, BitVec.ofNat_or, ofNat_without, BitVec.not_and, BitVec.not_not,
      BitVec.or_comm]

theorem ofInt_exclusive (x y : Int) :
    BitVec.ofInt width (exclusive x y) = BitVec.ofInt width x ^^^ BitVec.ofInt width y := by
  cases x <;> cases y <;>
    simp only [exclusive, Int.ofNat_eq_natCast, BitVec.ofInt_natCast,
      BitVec.ofInt_negSucc_eq_not_ofNat, BitVec.ofNat_xor, ← BitVec.not_xor_left,
      ← BitVec.not_xor_right, BitVec.not_not]

end TwosComplement

namespace Word

/-- An integer and its word have the same low bits. -/
theorem ofInt_reduce (value : Int) : BitVec.ofInt 15 (reduce value) = BitVec.ofInt 15 value := by
  rw [reduce_eq_toNat_ofInt, BitVec.ofInt_natCast, BitVec.ofNat_toNat, BitVec.setWidth_eq]

/-- **The complement of an integer** is congruent to that of its word. -/
theorem reduce_exclusive_mask (x : Int) :
    reduce (TwosComplement.exclusive x mask) = 32767 - reduce x := by
  have hmask : BitVec.ofInt 15 mask = BitVec.allOnes 15 := by decide
  rw [reduce_eq_toNat_ofInt, TwosComplement.ofInt_exclusive, hmask, BitVec.xor_allOnes,
    BitVec.toNat_not, reduce_eq_toNat_ofInt]
  have hlt := (BitVec.ofInt 15 x).isLt
  omega

end Word

/-! ### Instructions -/

/-- `Computes i target left right f` says that the instruction sets a register to the word of a
function `f` of two operands, which sees their low bits only. -/
inductive Instruction.Computes :
    Instruction → Operand → Operand → Operand → (Int → Int → Int) → Prop
  | add {target left right : Operand} :
    Computes (.add target left right) target left right (· + ·)
  | multiply {target left right : Operand} :
    Computes (.multiply target left right) target left right (· * ·)
  | and {target left right : Operand} :
    Computes (.and target left right) target left right TwosComplement.conj
  | or {target left right : Operand} :
    Computes (.or target left right) target left right TwosComplement.disj

namespace Instruction.Computes

variable {i : Instruction} {target left right : Operand} {f : Int → Int → Int}

theorem combines (hf : i.Computes target left right f) :
    i.Combines target left right fun x y => Word.reduce (f x y) := by
  cases hf with
  | add => exact .add
  | multiply => exact .multiply
  | and => exact .and
  | or => exact .or

/-- **The function is one of bit vectors.** -/
theorem exists_vector (hf : i.Computes target left right f) :
    ∃ g : BitVec 15 → BitVec 15 → BitVec 15, ∀ x y,
      BitVec.ofInt 15 (f x y) = g (BitVec.ofInt 15 x) (BitVec.ofInt 15 y) := by
  cases hf with
  | add => exact ⟨(· + ·), BitVec.ofInt_add⟩
  | multiply => exact ⟨(· * ·), BitVec.ofInt_mul⟩
  | and => exact ⟨(· &&& ·), TwosComplement.ofInt_conj⟩
  | or => exact ⟨(· ||| ·), TwosComplement.ofInt_disj⟩

/-- **The words of the operands give the same result.** -/
theorem reduce_reduce (hf : i.Computes target left right f) (x y : Int) :
    Word.reduce (f (Word.reduce x) (Word.reduce y)) = Word.reduce (f x y) := by
  obtain ⟨g, hg⟩ := hf.exists_vector
  have hsame : BitVec.ofInt 15 (f (Word.reduce x) (Word.reduce y)) = BitVec.ofInt 15 (f x y) := by
    rw [hg, hg, Word.ofInt_reduce, Word.ofInt_reduce]
  rw [Word.reduce_eq_toNat_ofInt, hsame, ← Word.reduce_eq_toNat_ofInt]

end Instruction.Computes

/-! ### Machines -/

namespace Machine

/-- The machine with words in those registers that are operands. -/
def reducing (m : Machine) (left right : Operand) : Machine :=
  { m with registers := ⟨Vector.ofFn fun k =>
      if left = .register k ∨ right = .register k then Word.reduce (m.registers.get k)
      else m.registers.get k⟩ }

variable {m : Machine} {instruction : Instruction} {i : Fin 8} {left right source : Operand}
  {f : Int → Int → Int} {x y : Int}

theorem value_reducing {operand : Operand} (hoperand : operand = left ∨ operand = right)
    (hx : m.value operand = .ok x) :
    (m.reducing left right).value operand = .ok (Word.reduce x) := by
  cases operand with
  | literal value =>
    cases hx
    have hword : Word.IsWord value.val := by
      have := value.isLt
      constructor <;> omega
    rw [Word.reduce_of_isWord hword]
    rfl
  | register k =>
    cases hx
    have hsource : left = .register k ∨ right = .register k := hoperand.imp Eq.symm Eq.symm
    show Except.ok ((m.reducing left right).registers.get k) = _
    simp [reducing, Registers.get, hsource]
  | invalid raw => cases hx

/-- An instruction that sets a register is completed, and the value is there afterwards. -/
theorem step_of_assign (hrun : m.status = .running) (hi : m.fetch = .ok instruction)
    (he : (m.prepare instruction).Performs instruction (.assign i x)) :
    m.step.2 = .completed ∧ m.step.1.registers.get i = x := by
  rw [step_of_performs hrun hi he]
  refine ⟨rfl, ?_⟩
  show (m.registers.set i x).get i = x
  rw [Registers.get_set_self]

/-- **Sums, products, conjunctions and disjunctions** are those of the words of the operands. -/
theorem step_of_computes (hrun : m.status = .running)
    (hf : instruction.Computes (.register i) left right f) (hi : m.fetch = .ok instruction)
    (hx : m.value left = .ok x) (hy : m.value right = .ok y) :
    m.step.2 = .completed ∧ (m.reducing left right).step.2 = .completed ∧
      m.step.1.registers.get i = Word.reduce (f x y) ∧
      (m.reducing left right).step.1.registers.get i = m.step.1.registers.get i := by
  obtain ⟨hdone, hvalue⟩ := step_of_assign hrun hi (.combine hf.combines hx hy rfl)
  have hx' : (m.reducing left right).value left = .ok (Word.reduce x) :=
    value_reducing (.inl rfl) hx
  have hy' : (m.reducing left right).value right = .ok (Word.reduce y) :=
    value_reducing (.inr rfl) hy
  obtain ⟨hdone', hvalue'⟩ :=
    step_of_assign (m := m.reducing left right) hrun hi (.combine hf.combines hx' hy' rfl)
  rw [hf.reduce_reduce] at hvalue'
  exact ⟨hdone, hdone', hvalue, hvalue'.trans hvalue.symm⟩

/-- **Complements** are congruent to those of words, and the second one takes the first one back. -/
theorem step_of_not (hrun : m.status = .running) (hi : m.fetch = .ok (.not (.register i) source))
    (hx : m.value source = .ok x) :
    m.step.2 = .completed ∧ m.step.1.registers.get i ≡ 32767 - x % 32768 [ZMOD 32768] ∧
      ∀ j, m.step.1.fetch = .ok (.not (.register j) (.register i)) →
        m.step.1.step.2 = .completed ∧ m.step.1.step.1.registers.get j = x := by
  have hperforms : (m.prepare (.not (.register i) source)).Performs (.not (.register i) source)
      (.assign i (TwosComplement.exclusive x Word.mask)) := .not hx rfl
  obtain ⟨hdone, hvalue⟩ := step_of_assign hrun hi hperforms
  refine ⟨hdone, ?_, fun j hj => ?_⟩
  · rw [hvalue]
    have hword := Word.reduce_exclusive_mask x
    have hrange := Word.reduce_isWord (TwosComplement.exclusive x Word.mask)
    rw [hword] at hrange
    exact hword.trans (Word.reduce_of_isWord hrange).symm
  · have hrun' : m.step.1.status = .running := by
      rw [step_of_performs hrun hi hperforms]
      exact hrun
    have hsource : (m.step.1.prepare (.not (.register j) (.register i))).value (.register i) =
        .ok (TwosComplement.exclusive x Word.mask) := congrArg Except.ok hvalue
    obtain ⟨hdone', hvalue'⟩ := step_of_assign hrun' hj (.not hsource rfl)
    exact ⟨hdone', hvalue'.trans (TwosComplement.exclusive_exclusive_ofNat x Word.mask)⟩

/-- **Remainders** are words, whatever the signs of the operands are. -/
theorem step_of_modulo (hrun : m.status = .running)
    (hi : m.fetch = .ok (.modulo (.register i) left right)) (hx : m.value left = .ok x)
    (hy : m.value right = .ok y) (hne : y ≠ 0) :
    m.step.2 = .completed ∧ m.step.1.registers.get i = x.fmod y % 32768 ∧
      0 ≤ m.step.1.registers.get i ∧ m.step.1.registers.get i ≤ 32767 := by
  obtain ⟨hdone, hvalue⟩ := step_of_assign hrun hi (.modulo hx hy rfl hne)
  obtain ⟨hlower, hupper⟩ := Word.reduce_isWord (x.fmod y)
  rw [← hvalue] at hlower hupper
  exact ⟨hdone, hvalue, hlower, by omega⟩

/-- **Arithmetic on any integers.**  A running machine that fetches one of these instructions, with
a register as its target and with operands that have values, completes it, whatever the integers are.
A sum, a product, a conjunction or a disjunction is what the machine would get with the words of the
operands in its registers.  A complement is congruent to the complement of the word, and the
complement of a complement is the integer itself.  The remainder of a division that rounds down is
reduced to a word, also if the divisor is negative. -/
theorem arithmetic_of_residues {m : Machine} (hrun : m.status = .running) (i : Fin 8) :
    (∀ instruction left right f x y, instruction.Computes (.register i) left right f →
      m.fetch = .ok instruction → m.value left = .ok x → m.value right = .ok y →
        m.step.2 = .completed ∧ (m.reducing left right).step.2 = .completed ∧
        m.step.1.registers.get i = Word.reduce (f x y) ∧
        (m.reducing left right).step.1.registers.get i = m.step.1.registers.get i) ∧
    (∀ source x, m.fetch = .ok (.not (.register i) source) → m.value source = .ok x →
      m.step.2 = .completed ∧ m.step.1.registers.get i ≡ 32767 - x % 32768 [ZMOD 32768] ∧
      ∀ j, m.step.1.fetch = .ok (.not (.register j) (.register i)) →
        m.step.1.step.2 = .completed ∧ m.step.1.step.1.registers.get j = x) ∧
    ∀ left right x y, m.fetch = .ok (.modulo (.register i) left right) → m.value left = .ok x →
      m.value right = .ok y → y ≠ 0 →
        m.step.2 = .completed ∧ m.step.1.registers.get i = x.fmod y % 32768 ∧
        0 ≤ m.step.1.registers.get i ∧ m.step.1.registers.get i ≤ 32767 := by
  refine ⟨?_, ?_, ?_⟩
  · intro instruction left right f x y hf hi hx hy
    exact step_of_computes hrun hf hi hx hy
  · intro source x hi hx
    exact step_of_not hrun hi hx
  · intro left right x y hi hx hy hne
    exact step_of_modulo hrun hi hx hy hne

/-- A conjunction and a remainder of an integer that is no word and of a negative one, and two
complements of the negative one. -/
theorem arithmetic_of_residues_of_negative :
    (∃ m : Machine, m.status = .running ∧
      m.fetch = .ok (.and (.register 2) (.register 0) (.register 1)) ∧
      m.value (.register 0) = .ok (-70001) ∧ m.value (.register 1) = .ok (10 ^ 30 + 7) ∧
      m.step.2 = .completed ∧ m.step.1.registers.get 2 = 7 ∧
      (m.reducing (.register 0) (.register 1)).step.1.registers.get 2 = 7) ∧
    (∃ m : Machine, m.status = .running ∧
      m.fetch = .ok (.modulo (.register 2) (.register 1) (.register 0)) ∧
      m.value (.register 1) = .ok (10 ^ 30 + 7) ∧ m.value (.register 0) = .ok (-70001) ∧
      m.step.2 = .completed ∧ m.step.1.registers.get 2 = 5623) ∧
    ∃ m : Machine, m.status = .running ∧ m.fetch = .ok (.not (.register 2) (.register 0)) ∧
      m.value (.register 0) = .ok (-70001) ∧
      m.step.1.fetch = .ok (.not (.register 3) (.register 2)) ∧
      m.step.1.step.1.registers.get 3 = -70001 := by
  -- a machine with the two integers in front of any image
  have hmachine : ∀ image, Image.Loadable image → ∃ m : Machine, m.IsAt image 0 ∧
      m.value (.register 0) = .ok (-70001) ∧ m.value (.register 1) = .ok (10 ^ 30 + 7) := by
    intro image himage
    obtain ⟨memory, hload, -⟩ := exists_load_fresh himage
    exact ⟨({ fresh .detached with memory := memory } : Machine).preset
      [(0, -70001), (1, 10 ^ 30 + 7)], ⟨hload, rfl, rfl⟩, rfl, rfl⟩
  refine ⟨?_, ?_, ?_⟩
  · obtain ⟨m, hat, hx, hy⟩ := hmachine [12, 32770, 32768, 32769] (by decide)
    have hi : m.fetch = .ok (.and (.register 2) (.register 0) (.register 1)) :=
      fetch_of_image hat.loaded hat.pc (by decide) rfl rfl
    obtain ⟨hdone, -, hvalue, hsame⟩ :=
      (arithmetic_of_residues hat.running 2).1 _ _ _ _ _ _ .and hi hx hy
    have hseven : m.step.1.registers.get 2 = 7 := hvalue.trans (by decide)
    exact ⟨m, hat.running, hi, hx, hy, hdone, hseven, hsame.trans hseven⟩
  · obtain ⟨m, hat, hx, hy⟩ := hmachine [11, 32770, 32769, 32768] (by decide)
    have hi : m.fetch = .ok (.modulo (.register 2) (.register 1) (.register 0)) :=
      fetch_of_image hat.loaded hat.pc (by decide) rfl rfl
    obtain ⟨hdone, hvalue, -⟩ :=
      (arithmetic_of_residues hat.running 2).2.2 _ _ _ _ hi hy hx (by decide)
    exact ⟨m, hat.running, hi, hy, hx, hdone, hvalue.trans (by decide)⟩
  · obtain ⟨m, hat, hx, -⟩ := hmachine [14, 32770, 32768, 14, 32771, 32770] (by decide)
    have hi : m.fetch = .ok (.not (.register 2) (.register 0)) :=
      fetch_of_image hat.loaded hat.pc (by decide) rfl rfl
    have hnext : m.step.1.IsAt _ 3 := hat.step hi (.not hx rfl) rfl
    have hi' : m.step.1.fetch = .ok (.not (.register 3) (.register 2)) :=
      fetch_of_image hnext.loaded hnext.pc (by decide) rfl rfl
    obtain ⟨-, -, htwice⟩ := (arithmetic_of_residues hat.running 2).2.1 _ _ hi hx
    exact ⟨m, hat.running, hi, hx, hi', (htwice 3 hi').2⟩

end Machine

end WordMachine
