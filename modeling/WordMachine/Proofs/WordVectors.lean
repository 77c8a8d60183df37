/-
  Words as bit vectors.

  A word is the number of a vector of 15 bits, and a cell is that of a vector of 16 bits.  Each
  operation on words that is followed by a reduction is the operation of the vectors, which needs
  none (`reduce_add`, `reduce_mul`, `reduce_fmod`, `reduce_conj`, `reduce_disj`), and slots and
  addresses can be told apart by their bits as well as by their numbers (`slot_cases`).
-/
import WordMachine.Proofs.Rules
import WordMachine.Proofs.VectorMachine

namespace WordMachine

/-! ### Words as vectors -/

namespace Word

theorem toNat_isWord (x : BitVec 15) : IsWord x.toNat := by
  have := x.isLt
  constructor <;> omega

/-- Reduction keeps the low 15 bits. -/
theorem reduce_eq_toNat_ofInt (value : Int) : reduce value = (BitVec.ofInt 15 value).toNat := by
  rw [reduce, BitVec.toNat_ofInt]
  omega

theorem reduce_toNat_cell (cell : BitVec 16) : reduce cell.toNat = (cell.setWidth 15).toNat := by
  rw [reduce, BitVec.toNat_setWidth]
  omega

theorem reduce_add (x y : BitVec 15) : reduce (x.toNat + y.toNat) = (x + y).toNat := by
  rw [reduce, BitVec.toNat_add]
  omega

theorem reduce_mul (x y : BitVec 15) : reduce (x.toNat * y.toNat) = (x * y).toNat := by
  rw [reduce, BitVec.toNat_mul, Int.natCast_emod, Int.natCast_mul]
  rfl

/-- On words the remainder of a division that rounds down is the unsigned remainder, and it is a
word already. -/
theorem reduce_fmod (x y : BitVec 15) :
    reduce ((x.toNat : Int).fmod y.toNat) = (x % y).toNat := by
  rw [Int.fmod_eq_emod_of_nonneg _ (Int.natCast_nonneg _), ← Int.natCast_emod, ← BitVec.toNat_umod]
  exact reduce_of_isWord (toNat_isWord (x % y))

theorem reduce_conj (x y : BitVec 15) :
    reduce (TwosComplement.conj x.toNat y.toNat) = (x &&& y).toNat :=
  reduce_of_isWord (toNat_isWord (x &&& y))

theorem reduce_disj (x y : BitVec 15) :
    reduce (TwosComplement.disj x.toNat y.toNat) = (x ||| y).toNat :=
  reduce_of_isWord (toNat_isWord (x ||| y))

/-- Flipping the bits of the mask is the complement. -/
theorem exclusive_mask (x : BitVec 15) : TwosComplement.exclusive x.toNat mask = (~~~x).toNat := by
  rw [← BitVec.xor_allOnes, BitVec.toNat_xor, BitVec.toNat_allOnes]
  rfl

theorem toNat_eq_zero_iff (x : BitVec 15) : (x.toNat : Int) = 0 ↔ x = 0 := by
  rw [← BitVec.toNat_inj, Int.natCast_eq_zero]
  rfl

theorem ite_eq_toNat (x y : BitVec 15) :
    (if (x.toNat : Int) = y.toNat then 1 else 0) =
      ((if x = y then 1 else 0 : BitVec 15).toNat : Int) := by
  by_cases h : x = y
  · rw [if_pos (by rw [h]), if_pos h]
    rfl
  · rw [if_neg (by rwa [Int.natCast_inj, BitVec.toNat_inj]), if_neg h]
    rfl

theorem ite_lt_toNat (x y : BitVec 15) :
    (if (y.toNat : Int) < x.toNat then 1 else 0) =
      ((if y.ult x then 1 else 0 : BitVec 15).toNat : Int) := by
  by_cases h : y.toNat < x.toNat
  · rw [if_pos (by omega), if_pos (by rw [BitVec.ult_eq_decide]; exact decide_eq_true h)]
    rfl
  · rw [if_neg (by omega), if_neg (by rw [BitVec.ult_eq_decide]; simpa using h)]
    rfl

end Word

/-! ### Slots and addresses -/

/-- What a slot stands for on both machines: a literal, a register, or nothing. -/
theorem VectorMachine.slot_cases (slot : BitVec 16) :
    (slot.msb = false ∧ register? slot = none ∧
      Operand.ofRaw slot.toNat = .literal (slot.setWidth 15).toFin) ∨
    (∃ i, slot.msb = true ∧ register? slot = some i ∧ Operand.ofRaw slot.toNat = .register i) ∨
    (slot.msb = true ∧ register? slot = none ∧ Operand.ofRaw slot.toNat = .invalid slot.toNat) := by
  -- both machines see the ranges of the slot, one in its bits and one in its number
  have hmsb : slot.msb = decide (32768 ≤ slot.toNat) := slot.msb_eq_decide
  have hregister : register? slot = if 32768 ≤ slot.toNat ∧ slot.toNat ≤ 32775 then
      some (slot.setWidth 3).toFin else none := rfl
  by_cases hliteral : slot.toNat < 32768
  · left
    have hfalse : slot.msb = false := by
      rw [hmsb]
      simpa using hliteral
    refine ⟨hfalse, ?_, ?_⟩
    · rw [hregister, if_neg (by omega)]
    · rw [Operand.ofRaw, dif_pos (by omega)]
      congr 1
      ext
      simp
      omega
  · have htrue : slot.msb = true := by
      rw [hmsb]
      simpa using hliteral
    by_cases hname : slot.toNat ≤ 32775
    · refine .inr (.inl ⟨(slot.setWidth 3).toFin, htrue, ?_, ?_⟩)
      · rw [hregister, if_pos (by omega)]
      · rw [Operand.ofRaw, dif_neg (by omega), dif_pos (by omega)]
        congr 1
        ext
        simp
        omega
    · refine .inr (.inr ⟨htrue, ?_, ?_⟩)
      · rw [hregister, if_neg (by omega)]
      · rw [Operand.ofRaw, dif_neg (by omega), dif_neg (by omega)]

theorem Memory.checkAddress_toNat (a : BitVec 15) : checkAddress 32768 a.toNat = .ok a.toFin :=
  checkAddress_val a.toFin

theorem Memory.toCell_word (y : BitVec 15) :
    toCell y.toNat = .ok (.ofBitVec (y.setWidth 16)) := by
  rw [toCell_eq_ok_iff]
  show (y.toNat : Int) = (y.setWidth 16).toNat
  rw [BitVec.toNat_setWidth_of_le (by decide)]

end WordMachine
