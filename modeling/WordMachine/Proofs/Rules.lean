/-
  The rules of the instructions.

  `Machine.effect` makes the checks of an instruction one after another.  `Machine.Performs` says
  the same thing rule by rule: under which conditions an instruction passes, and what it then
  does.  The two are the same (`effect_eq_ok_iff`), so that an invariant of all instructions is
  proved by cases on the rules and no proof about runs opens the checks again.
-/
import WordMachine.Machine.Step

namespace WordMachine

/-! ### Chains of checks -/

namespace Check

variable {ε ε' α β : Type}

/-- A chain of checks passes exactly when each of them passes in turn. -/
theorem bind_eq_ok_iff {x : Except ε α} {f : α → Except ε β} {b : β} :
    (x >>= f) = .ok b ↔ ∃ a, x = .ok a ∧ f a = .ok b := by
  cases x <;> simp [bind, Except.bind]

/-- A chain of checks fails with the error of the first check that fails. -/
theorem bind_eq_error_iff {x : Except ε α} {f : α → Except ε β} {e : ε} :
    (x >>= f) = .error e ↔ x = .error e ∨ ∃ a, x = .ok a ∧ f a = .error e := by
  cases x <;> simp [bind, Except.bind]

theorem ok_bind (a : α) (f : α → Except ε β) : (Except.ok a >>= f) = f a := (rfl)

theorem pure_eq_ok (a : α) : (pure a : Except ε α) = .ok a := rfl

theorem ok_mapError (a : α) (f : ε → ε') : (Except.ok a : Except ε α).mapError f = .ok a := (rfl)

theorem error_mapError (e : ε) (f : ε → ε') :
    (Except.error e : Except ε α).mapError f = .error (f e) := (rfl)

theorem mapError_eq_ok_iff {x : Except ε α} {f : ε → ε'} {a : α} :
    x.mapError f = .ok a ↔ x = .ok a := by
  cases x <;> simp [ok_mapError, error_mapError]

theorem mapError_eq_error_iff {x : Except ε α} {f : ε → ε'} {e : ε'} :
    x.mapError f = .error e ↔ ∃ e', x = .error e' ∧ f e' = e := by
  cases x <;> simp [ok_mapError, error_mapError]

end Check

/-! ### Cells and addresses -/

namespace Memory

variable {size : Nat}

theorem checkAddress_val (i : Fin size) : checkAddress size i.val = .ok i :=
  checkAddress_eq_ok_iff.mpr rfl

theorem read_val (m : Memory size) (i : Fin size) : m.read i.val = .ok (m.cell i) := by
  rw [read, checkAddress_val]
  rfl

theorem read_eq_ok_iff {m : Memory size} {address value : Int} :
    m.read address = .ok value ↔ ∃ i : Fin size, address = i.val ∧ value = m.cell i := by
  constructor
  · intro h
    unfold read at h
    cases hi : checkAddress size address with
    | error fault => rw [hi] at h; cases h
    | ok i =>
      rw [hi] at h
      cases h
      exact ⟨i, checkAddress_eq_ok_iff.mp hi, rfl⟩
  · rintro ⟨i, rfl, rfl⟩
    exact m.read_val i

theorem read_eq_error_iff {m : Memory size} {address : Int} {fault : Fault} :
    m.read address = .error fault ↔
      fault = .addressOutOfRange address ∧ (address < 0 ∨ size ≤ address) := by
  rw [← checkAddress_eq_error_iff, read]
  cases checkAddress size address <;> simp [Except.map]

theorem toCell_eq_ok_iff {value : Int} {cell : UInt16} :
    toCell value = .ok cell ↔ value = cell.toNat := by
  have hlt : cell.toNat < 65536 := cell.toNat_lt
  unfold toCell
  split
  · rw [Except.ok.injEq, ← UInt16.toNat_inj, UInt16.toNat_ofNat']
    omega
  · simp only [reduceCtorEq, false_iff]
    omega

theorem toCell_toNat (cell : UInt16) : toCell cell.toNat = .ok cell := toCell_eq_ok_iff.mpr rfl

theorem toCell_eq_error_iff {value other : Int} :
    toCell value = .error other ↔ other = value ∧ (value < 0 ∨ 65535 < value) := by
  unfold toCell
  split
  · simp only [reduceCtorEq, false_iff]
    omega
  · rw [Except.error.injEq]
    constructor
    · rintro rfl
      exact ⟨rfl, by omega⟩
    · exact fun h => h.1.symm

end Memory

/-- Only a register is a destination. -/
theorem Operand.eq_register_of_destination {operand : Operand} {i : Fin 8}
    (h : operand.destination = .ok i) : operand = .register i := by
  cases operand with
  | register index =>
    cases h
    rfl
  | literal value => cases h
  | invalid raw => cases h

theorem Stack.pop_eq_ok_iff {s rest : Stack} {value : Int} :
    s.pop = .ok (value, rest) ↔ s.items = value :: rest.items := by
  obtain ⟨items⟩ := s
  obtain ⟨rest⟩ := rest
  cases items <;> simp [pop]

/-! ### The rules -/

/-- `Combines i target left right f` says that the instruction sets a register to a function `f` of
two operands, without a condition on their values. -/
inductive Instruction.Combines :
    Instruction → Operand → Operand → Operand → (Int → Int → Int) → Prop
  | equal {target left right : Operand} :
    Combines (.equal target left right) target left right fun x y => if x = y then 1 else 0
  | greater {target left right : Operand} :
    Combines (.greater target left right) target left right fun x y => if y < x then 1 else 0
  | add {target left right : Operand} :
    Combines (.add target left right) target left right fun x y => Word.reduce (x + y)
  | multiply {target left right : Operand} :
    Combines (.multiply target left right) target left right fun x y => Word.reduce (x * y)
  | and {target left right : Operand} :
    Combines (.and target left right) target left right
      fun x y => Word.reduce (TwosComplement.conj x y)
  | or {target left right : Operand} :
    Combines (.or target left right) target left right
      fun x y => Word.reduce (TwosComplement.disj x y)

/-- `m.Performs i e` says that the instruction `i` passes its checks on the machine `m` and is going
to have the effect `e`.  There is a rule for each instruction, two for a conditional jump. -/
inductive Machine.Performs (m : Machine) : Instruction → Effect → Prop
  | halt : Performs m .halt .halt
  | noop : Performs m .noop .nothing
  | set {target source : Operand} {i : Fin 8} {x : Int}
      (hx : m.value source = .ok x) (hi : target.destination = .ok i) :
      Performs m (.set target source) (.assign i x)
  | push {source : Operand} {x : Int} (hx : m.value source = .ok x) :
      Performs m (.push source) (.push x)
  | pop {target : Operand} {i : Fin 8} {x : Int} {rest : List Int}
      (hi : target.destination = .ok i) (hx : m.stack.items = x :: rest) :
      Performs m (.pop target) (.pop i x)
  | combine {instruction : Instruction} {target left right : Operand} {f : Int → Int → Int}
      {i : Fin 8} {x y : Int} (hf : instruction.Combines target left right f)
      (hx : m.value left = .ok x) (hy : m.value right = .ok y) (hi : target.destination = .ok i) :
      Performs m instruction (.assign i (f x y))
  | modulo {target left right : Operand} {i : Fin 8} {x y : Int}
      (hx : m.value left = .ok x) (hy : m.value right = .ok y) (hi : target.destination = .ok i)
      (hne : y ≠ 0) : Performs m (.modulo target left right) (.assign i (Word.reduce (x.fmod y)))
  | not {target source : Operand} {i : Fin 8} {x : Int}
      (hx : m.value source = .ok x) (hi : target.destination = .ok i) :
      Performs m (.not target source) (.assign i (TwosComplement.exclusive x Word.mask))
  | jump {target : Operand} {x : Int} (hx : m.value target = .ok x) :
      Performs m (.jump target) (.jump x)
  | jumpIfTaken {condition target : Operand} {c x : Int}
      (hc : m.value condition = .ok c) (hne : c ≠ 0) (hx : m.value target = .ok x) :
      Performs m (.jumpIf condition target) (.jump x)
  | jumpIfPassed {condition target : Operand} (hc : m.value condition = .ok 0) :
      Performs m (.jumpIf condition target) .nothing
  | jumpUnlessTaken {condition target : Operand} {x : Int}
      (hc : m.value condition = .ok 0) (hx : m.value target = .ok x) :
      Performs m (.jumpUnless condition target) (.jump x)
  | jumpUnlessPassed {condition target : Operand} {c : Int}
      (hc : m.value condition = .ok c) (hne : c ≠ 0) :
      Performs m (.jumpUnless condition target) .nothing
  | readCell {target address : Operand} {i : Fin 8} {a : Fin 32768}
      (ha : m.value address = .ok a.val) (hi : target.destination = .ok i) :
      Performs m (.readCell target address) (.assign i (Word.reduce (m.memory.cell a)))
  | writeCell {address source : Operand} {a : Fin 32768} {cell : UInt16}
      (ha : m.value address = .ok a.val) (hx : m.value source = .ok cell.toNat) :
      Performs m (.writeCell address source) (.store a cell)
  | call {target : Operand} {x : Int} (back : Fin 32768)
      (hx : m.value target = .ok x) (hback : m.nextPc = back.val) :
      Performs m (.call target) (.call back.val x)
  | ret {x : Int} {rest : List Int} (hx : m.stack.items = x :: rest) : Performs m .ret (.ret x)
  | output {source : Operand} {x : Int}
      (hx : m.value source = .ok x) (haccepts : m.channel.accepts x = .ok ()) :
      Performs m (.output source) (.emit x)
  | input {target : Operand} {i : Fin 8} {code : Int}
      (hi : target.destination = .ok i) (hcode : m.channel.next? = .ok (some code)) :
      Performs m (.input target) (.consume i (Word.reduce code))

namespace Machine

/-! ### The checks follow the rules -/

@[simp] theorem source_eq_ok_iff {m : Machine} {operand : Operand} {x : Int} :
    m.source operand = .ok x ↔ m.value operand = .ok x :=
  Check.mapError_eq_ok_iff

@[simp] theorem destination_eq_ok_iff {m : Machine} {operand : Operand} {i : Fin 8} :
    m.destination operand = .ok i ↔ operand.destination = .ok i :=
  Check.mapError_eq_ok_iff

/-- The instructions that combine two operands are checked by `combine`. -/
theorem effect_of_combines {m : Machine} {instruction : Instruction} {target left right : Operand}
    {f : Int → Int → Int} (hf : instruction.Combines target left right f) :
    m.effect instruction = m.combine target left right f := by
  cases hf <;> rfl

theorem combine_eq_ok_iff {m : Machine} {target left right : Operand} {f : Int → Int → Int}
    {e : Effect} : m.combine target left right f = .ok e ↔ ∃ x y i, m.value left = .ok x ∧
      m.value right = .ok y ∧ target.destination = .ok i ∧ e = .assign i (f x y) := by
  simp only [combine, Check.bind_eq_ok_iff, Check.pure_eq_ok, source_eq_ok_iff,
    destination_eq_ok_iff, Except.ok.injEq]
  constructor
  · rintro ⟨x, hx, y, hy, i, hi, rfl⟩
    exact ⟨x, y, i, hx, hy, hi, rfl⟩
  · rintro ⟨x, y, i, hx, hy, hi, rfl⟩
    exact ⟨x, hx, y, hy, i, hi, rfl⟩

theorem performs_of_combines {m : Machine} {instruction : Instruction}
    {target left right : Operand} {f : Int → Int → Int} {e : Effect}
    (hf : instruction.Combines target left right f) (h : m.effect instruction = .ok e) :
    m.Performs instruction e := by
  rw [effect_of_combines hf, combine_eq_ok_iff] at h
  obtain ⟨x, y, i, hx, hy, hi, rfl⟩ := h
  exact .combine hf hx hy hi

/-- **Soundness of the rules**: an instruction that passes its checks follows one of them. -/
theorem performs_of_effect_eq_ok {m : Machine} {i : Instruction} {e : Effect}
    (h : m.effect i = .ok e) : m.Performs i e := by
  cases i
  -- the instructions that combine two operands are checked in one way
  case equal => exact performs_of_combines .equal h
  case greater => exact performs_of_combines .greater h
  case add => exact performs_of_combines .add h
  case multiply => exact performs_of_combines .multiply h
  case and => exact performs_of_combines .and h
  case or => exact performs_of_combines .or h
  -- for all others the chain of checks falls apart into its links
  all_goals
    simp only [effect, Check.bind_eq_ok_iff, Check.pure_eq_ok, source_eq_ok_iff,
      destination_eq_ok_iff, Check.mapError_eq_ok_iff, Except.ok.injEq] at h
  case halt => subst h; exact .halt
  case noop => subst h; exact .noop
  case set =>
    obtain ⟨x, hx, i, hi, rfl⟩ := h
    exact .set hx hi
  case push =>
    obtain ⟨x, hx, rfl⟩ := h
    exact .push hx
  case pop =>
    obtain ⟨i, hi, ⟨x, rest⟩, hx, rfl⟩ := h
    exact .pop hi (Stack.pop_eq_ok_iff.mp hx)
  case jump =>
    obtain ⟨x, hx, rfl⟩ := h
    exact .jump hx
  case jumpIf =>
    obtain ⟨c, hc, h⟩ := h
    split at h
    · rename_i hne
      rw [Check.bind_eq_ok_iff] at h
      obtain ⟨x, hx, h⟩ := h
      cases h
      exact .jumpIfTaken hc hne (source_eq_ok_iff.mp hx)
    · rename_i h0
      obtain rfl : c = 0 := Decidable.not_not.mp h0
      cases h
      exact .jumpIfPassed hc
  case jumpUnless =>
    obtain ⟨c, hc, h⟩ := h
    split at h
    · rename_i h0
      subst h0
      rw [Check.bind_eq_ok_iff] at h
      obtain ⟨x, hx, h⟩ := h
      cases h
      exact .jumpUnlessTaken hc (source_eq_ok_iff.mp hx)
    · rename_i hne
      cases h
      exact .jumpUnlessPassed hc hne
  case modulo =>
    obtain ⟨y, hy, h⟩ := h
    split at h
    · cases h
    · rename_i hne
      rw [combine_eq_ok_iff] at h
      obtain ⟨x, y', i, hx, hy', hi, rfl⟩ := h
      -- the divisor is resolved twice, with the same result
      obtain rfl : y = y' := Except.ok.inj (hy.symm.trans hy')
      exact .modulo hx hy hi hne
  case not =>
    obtain ⟨x, hx, i, hi, rfl⟩ := h
    exact .not hx hi
  case readCell =>
    obtain ⟨a, ha, x, hx, i, hi, rfl⟩ := h
    rw [Memory.read_eq_ok_iff] at hx
    obtain ⟨j, rfl, rfl⟩ := hx
    exact .readCell ha hi
  case writeCell =>
    obtain ⟨a, ha, x, hx, j, hj, cell, hcell, rfl⟩ := h
    rw [Memory.checkAddress_eq_ok_iff] at hj
    rw [Memory.toCell_eq_ok_iff] at hcell
    subst hj hcell
    exact .writeCell ha hx
  case call =>
    obtain ⟨x, hx, back, hback, rfl⟩ := h
    rw [Memory.checkAddress_eq_ok_iff] at hback
    rw [hback]
    exact .call back hx hback
  case ret =>
    obtain ⟨⟨x, rest⟩, hx, rfl⟩ := h
    exact .ret (Stack.pop_eq_ok_iff.mp hx)
  case output =>
    obtain ⟨x, hx, ⟨⟩, haccepts, rfl⟩ := h
    exact .output hx haccepts
  case input =>
    obtain ⟨i, hi, next, hnext, h⟩ := h
    cases next with
    | none => cases h
    | some code =>
      cases h
      exact .input hi hnext

/-- **Completeness of the rules**: an instruction that a rule allows passes its checks. -/
theorem effect_eq_ok_of_performs {m : Machine} {i : Instruction} {e : Effect}
    (h : m.Performs i e) : m.effect i = .ok e := by
  cases h with
  | halt => rfl
  | noop => rfl
  | set hx hi =>
    simp only [effect, source_eq_ok_iff.mpr hx, destination_eq_ok_iff.mpr hi, Check.ok_bind,
      Check.pure_eq_ok]
  | push hx => simp only [effect, source_eq_ok_iff.mpr hx, Check.ok_bind, Check.pure_eq_ok]
  | pop hi hx =>
    have hpop : m.stack.pop = .ok (_, ⟨_⟩) := Stack.pop_eq_ok_iff.mpr hx
    simp only [effect, destination_eq_ok_iff.mpr hi, hpop, Check.ok_mapError, Check.ok_bind,
      Check.pure_eq_ok]
  | combine hf hx hy hi =>
    rw [effect_of_combines hf, combine_eq_ok_iff]
    exact ⟨_, _, _, hx, hy, hi, rfl⟩
  | modulo hx hy hi hne =>
    simp only [effect, source_eq_ok_iff.mpr hy, Check.ok_bind, hne, if_false]
    exact combine_eq_ok_iff.mpr ⟨_, _, _, hx, hy, hi, rfl⟩
  | not hx hi =>
    simp only [effect, source_eq_ok_iff.mpr hx, destination_eq_ok_iff.mpr hi, Check.ok_bind,
      Check.pure_eq_ok]
  | jump hx => simp only [effect, source_eq_ok_iff.mpr hx, Check.ok_bind, Check.pure_eq_ok]
  | jumpIfTaken hc hne hx =>
    simp only [effect, source_eq_ok_iff.mpr hc, source_eq_ok_iff.mpr hx, Check.ok_bind,
      Check.pure_eq_ok, ne_eq, hne, not_false_eq_true, if_true]
  | jumpIfPassed hc =>
    simp only [effect, source_eq_ok_iff.mpr hc, Check.ok_bind, Check.pure_eq_ok, ne_eq,
      not_true_eq_false, if_false]
  | jumpUnlessTaken hc hx =>
    simp only [effect, source_eq_ok_iff.mpr hc, source_eq_ok_iff.mpr hx, Check.ok_bind,
      Check.pure_eq_ok, if_true]
  | jumpUnlessPassed hc hne =>
    simp only [effect, source_eq_ok_iff.mpr hc, Check.ok_bind, Check.pure_eq_ok, hne, if_false]
  | readCell ha hi =>
    simp only [effect, source_eq_ok_iff.mpr ha, Memory.read_val, destination_eq_ok_iff.mpr hi,
      Check.ok_mapError, Check.ok_bind, Check.pure_eq_ok]
  | writeCell ha hx =>
    simp only [effect, source_eq_ok_iff.mpr ha, source_eq_ok_iff.mpr hx, Memory.checkAddress_val,
      Memory.toCell_toNat, Check.ok_mapError, Check.ok_bind, Check.pure_eq_ok]
  | call back hx hback =>
    simp only [effect, source_eq_ok_iff.mpr hx, hback, Memory.checkAddress_val, Check.ok_mapError,
      Check.ok_bind, Check.pure_eq_ok]
  | ret hx =>
    have hpop : m.stack.pop = .ok (_, ⟨_⟩) := Stack.pop_eq_ok_iff.mpr hx
    simp only [effect, hpop, Check.ok_mapError, Check.ok_bind, Check.pure_eq_ok]
  | output hx haccepts =>
    simp only [effect, source_eq_ok_iff.mpr hx, haccepts, Check.ok_mapError, Check.ok_bind,
      Check.pure_eq_ok]
  | input hi hcode =>
    simp only [effect, destination_eq_ok_iff.mpr hi, hcode, Check.ok_mapError, Check.ok_bind,
      Check.pure_eq_ok]

/-- **The checks are the rules.** -/
theorem effect_eq_ok_iff {m : Machine} {i : Instruction} {e : Effect} :
    m.effect i = .ok e ↔ m.Performs i e :=
  ⟨performs_of_effect_eq_ok, effect_eq_ok_of_performs⟩

end Machine

end WordMachine
