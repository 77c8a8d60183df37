/-
  The machine refines a machine on bit vectors.

  A machine and a vector machine correspond when registers, stack and memory hold the same numbers
  and everything else is the same.  Each check of an instruction passes on both machines or on
  neither, with values that correspond (`Check.Mirrors`), so an instruction does too
  (`Corresponds.execute`), and so does a step.  `refines_vectors` follows the two machines through
  runs of any length.
-/
import WordMachine.Proofs.Fetch
import WordMachine.Proofs.Mirrors
import WordMachine.Proofs.WordClosure
import WordMachine.Proofs.WordVectors

namespace WordMachine

open Check

theorem VectorMachine.destination_mirrors (slot : BitVec 16) :
    Mirrors Eq (Operand.ofRaw slot.toNat).destination (register? slot) := by
  rcases slot_cases slot with ⟨-, hregister, hraw⟩ | ⟨i, -, hregister, hraw⟩ | ⟨-, hregister, hraw⟩
  · rw [hraw, hregister]
    exact .error _
  · rw [hraw, hregister]
    exact .ok rfl
  · rw [hraw, hregister]
    exact .error _

namespace Machine

/-! ### Correspondence -/

/-- A machine **corresponds** to a vector machine when registers, stack and memory hold the same
numbers, and device, program counter and status are the same. -/
structure Corresponds (m : Machine) (v : VectorMachine) : Prop where
  /-- The registers hold the same numbers. -/
  register : ∀ i, m.registers.get i = (v.registers i).toNat
  /-- The stacks hold the same numbers. -/
  stack : m.stack.items = v.stack.map fun x => (x.toNat : Int)
  /-- The cells hold the same numbers. -/
  cell : ∀ a : BitVec 15, m.memory.cell a.toFin = (v.memory a).toNat
  /-- The devices are the same. -/
  channel : v.channel = m.channel
  /-- The program counters are the same. -/
  pc : v.pc = m.pc
  /-- Both machines are running, or both have halted. -/
  status : m.status = if v.halted then .halted else .running

variable {m : Machine} {v : VectorMachine}

theorem Corresponds.value (h : m.Corresponds v) (slot : BitVec 16) :
    Mirrors (fun x y => x = (y.toNat : Int)) (m.value (.ofRaw slot.toNat)) (v.value? slot) := by
  unfold Machine.value VectorMachine.value?
  rcases VectorMachine.slot_cases slot with
    ⟨hmsb, -, hraw⟩ | ⟨i, hmsb, hregister, hraw⟩ | ⟨hmsb, hregister, hraw⟩
  · rw [hraw, hmsb]
    exact .ok rfl
  · rw [hraw, hmsb, hregister]
    exact .ok (h.register i)
  · rw [hraw, hmsb, hregister]
    exact .error _

/-- An address is an index of the memory on one machine and a vector on the other. -/
theorem address_mirrors (address : Int) :
    Mirrors (fun i a => i = BitVec.toFin a ∧ address = a.toNat)
      (Memory.checkAddress 32768 address) (VectorMachine.address? address) := by
  unfold Memory.checkAddress VectorMachine.address?
  by_cases hin : 0 ≤ address ∧ address < (32768 : Nat)
  · have htoNat : (BitVec.ofInt 15 address).toNat = address.toNat := by
      rw [BitVec.toNat_ofInt]
      omega
    rw [dif_pos hin, if_pos (by omega)]
    exact .ok ⟨Fin.ext htoNat.symm, by omega⟩
  · rw [dif_neg hin, if_neg (by omega)]
    exact .error _

theorem Corresponds.read (h : m.Corresponds v) (address : Int) :
    Mirrors (fun x y => x = (y.toNat : Int)) (m.memory.read address) (v.cell? address) :=
  (address_mirrors address).map fun _ a hi => by rw [hi.1, h.cell a]

/-- The cells that a vector machine reads are read by the other machine. -/
theorem Corresponds.read_of_cells? (h : m.Corresponds v) {address : Int} {n : Nat}
    {slots : List (BitVec 16)} (hslots : v.cells? address n = some slots) : slots.length = n ∧
      ∀ k (hk : k < slots.length), m.memory.read (address + k) = .ok (slots[k].toNat : Int) := by
  induction n generalizing address slots with
  | zero =>
    cases hslots
    exact ⟨rfl, fun k hk => absurd hk (Nat.not_lt_zero k)⟩
  | succ n ih =>
    simp only [VectorMachine.cells?, Option.bind_eq_bind, Option.bind_eq_some_iff] at hslots
    obtain ⟨cell, hcell, rest, hrest, hcons⟩ := hslots
    cases hcons
    obtain ⟨hlength, hreads⟩ := ih hrest
    refine ⟨congrArg (· + 1) hlength, fun k hk => ?_⟩
    cases k with
    | zero =>
      obtain ⟨x, hx, rfl⟩ := (h.read address).exists_ok hcell
      simpa using hx
    | succ k =>
      rw [show address + (k + 1 : Nat) = address + 1 + k by omega]
      exact hreads k (Nat.lt_of_succ_lt_succ hk)

/-- The cells that a machine can read are read by the vector machine. -/
theorem Corresponds.exists_cells? (h : m.Corresponds v) {address : Int} {n : Nat}
    (hreads : ∀ k < n, ∃ x, m.memory.read (address + k) = .ok x) :
    ∃ slots, v.cells? address n = some slots := by
  induction n generalizing address with
  | zero => exact ⟨[], rfl⟩
  | succ n ih =>
    obtain ⟨x, hx⟩ := hreads 0 (Nat.succ_pos n)
    rw [show address + (0 : Nat) = address by omega] at hx
    obtain ⟨cell, hcell, -⟩ := (h.read address).exists_some hx
    have hbehind : ∀ k < n, ∃ x, m.memory.read (address + 1 + k) = .ok x := by
      intro k hk
      rw [show address + 1 + k = address + (k + 1 : Nat) by omega]
      exact hreads (k + 1) (Nat.succ_lt_succ hk)
    obtain ⟨rest, hrest⟩ := ih hbehind
    exact ⟨cell :: rest, by rw [VectorMachine.cells?, hcell, hrest]; rfl⟩

theorem Corresponds.slice (h : m.Corresponds v) (address : Int) (n : Nat) :
    Mirrors (fun words slots => words = slots.map fun slot : BitVec 16 => (slot.toNat : Int))
      (m.memory.slice address n) (v.cells? address n) := by
  cases hslots : v.cells? address n with
  | some slots =>
    obtain ⟨hlength, hreads⟩ := h.read_of_cells? hslots
    have hslice : m.memory.slice address n = .ok (slots.map fun slot => (slot.toNat : Int)) := by
      refine Memory.slice_eq_ok_iff.mpr ⟨List.length_map _ |>.trans hlength, fun k hk => ?_⟩
      rw [List.length_map] at hk
      rw [List.getElem_map]
      exact hreads k hk
    rw [hslice]
    exact .ok rfl
  | none =>
    cases hwords : m.memory.slice address n with
    | error fault => exact .error fault
    | ok words =>
      obtain ⟨rfl, hreads⟩ := Memory.slice_eq_ok_iff.mp hwords
      obtain ⟨slots, hsome⟩ := h.exists_cells? fun k hk => ⟨_, hreads k hk⟩
      rw [hslots] at hsome
      cases hsome

/-- **Both machines fetch the same instruction.** -/
theorem Corresponds.fetch (h : m.Corresponds v) :
    Mirrors (fun i fetched => i = .build fetched.1 fun k => .ofRaw (fetched.2.getD k 0).toNat)
      m.fetch v.fetch? := by
  have hread := h.read m.pc
  unfold Machine.fetch VectorMachine.fetch?
  rw [h.pc]
  -- the opcode is looked up by number on both sides, then the operands behind it are read
  generalize m.memory.read m.pc = code at hread ⊢
  generalize v.cell? m.pc = cell at hread ⊢
  cases hread with
  | error fault => exact .error fault
  | @ok code cell hcode =>
    subst hcode
    cases hop : Opcode.ofCode? cell.toNat with
    | none =>
      simp only [hop, Option.bind_eq_bind, Option.bind_some, Option.bind_none]
      exact .error _
    | some op =>
      have hslice := h.slice (m.pc + 1) op.arity
      simp only [hop, Option.bind_eq_bind, Option.bind_some]
      generalize m.memory.slice (m.pc + 1) op.arity = words at hslice ⊢
      generalize v.cells? (m.pc + 1) op.arity = slots at hslice ⊢
      cases hslice with
      | error fault => exact .error fault
      | @ok words slots hwords =>
        subst hwords
        refine .ok ?_
        congr 1
        funext k
        rw [List.getD_eq_getElem?_getD, List.getD_eq_getElem?_getD, List.getElem?_map]
        cases slots[k]? <;> rfl

/-! ### Effects -/

/-- The machine that continues with the next instruction. -/
def proceed (m : Machine) : Machine := { m with pc := m.nextPc, steps := m.steps + 1 }

theorem Corresponds.prepare (h : m.Corresponds v) (i : Instruction) (channel : Channel)
    (hchannel : channel = (m.prepare i).channel) :
    (m.prepare i).proceed.Corresponds
      { v with pc := v.pc + i.opcode.width, channel := channel } where
  register := h.register
  stack := h.stack
  cell := h.cell
  channel := hchannel
  pc := congrArg (· + (i.opcode.width : Int)) h.pc
  status := h.status

theorem Corresponds.prepare_of_ne_input (h : m.Corresponds v) {i : Instruction}
    (hi : i.opcode ≠ .input) :
    (m.prepare i).proceed.Corresponds (v.goto (v.pc + i.opcode.width)) := by
  refine h.prepare i v.channel ?_
  have hreads : i.readsInput = false := by
    cases i with
    | input => exact absurd rfl hi
    | _ => rfl
  rw [channel_prepare_eq, hreads, h.channel]
  rfl

theorem Corresponds.assign (h : m.proceed.Corresponds v) (i : Fin 8) {x : Int} {y : BitVec 15}
    (hx : x = y.toNat) :
    ({ m with registers := m.registers.set i x } : Machine).proceed.Corresponds (v.assign i y) where
  register j := by
    show (m.registers.set i x).get j = (Function.update v.registers i y j).toNat
    by_cases hij : i = j
    · subst hij
      rw [Registers.get_set_self, Function.update_self, hx]
    · rw [Registers.get_set_of_ne _ _ hij, Function.update_of_ne (Ne.symm hij)]
      exact h.register j
  stack := h.stack
  cell := h.cell
  channel := h.channel
  pc := h.pc
  status := h.status

theorem Corresponds.push (h : m.proceed.Corresponds v) {x : Int} {y : BitVec 15}
    (hx : x = y.toNat) : ({ m with stack := m.stack.push x } : Machine).proceed.Corresponds
      { v with stack := y :: v.stack } where
  register := h.register
  stack := by
    show x :: m.stack.items = (y :: v.stack).map fun x => (x.toNat : Int)
    rw [List.map_cons, hx]
    exact congrArg _ h.stack
  cell := h.cell
  channel := h.channel
  pc := h.pc
  status := h.status

/-- **Both stacks are popped**, with the same number, or both are empty. -/
theorem Corresponds.pop (h : m.proceed.Corresponds v) :
    Mirrors (fun popped popped' => popped.1 = (popped'.1.toNat : Int) ∧
      ({ m with stack := m.stack.drop } : Machine).proceed.Corresponds popped'.2)
      m.stack.pop v.pop? := by
  have hstack : m.stack.items = v.stack.map fun x => (x.toNat : Int) := h.stack
  unfold Stack.pop VectorMachine.pop?
  cases hv : v.stack with
  | nil =>
    rw [hv] at hstack
    rw [hstack]
    exact .error _
  | cons y rest =>
    rw [hv, List.map_cons] at hstack
    rw [hstack]
    refine .ok ⟨rfl, { h with stack := ?_ }⟩
    show m.stack.items.tail = _
    rw [hstack]
    rfl

theorem Corresponds.goto (h : m.proceed.Corresponds v) {x target : Int} (hx : x = target) :
    ({ m with nextPc := x } : Machine).proceed.Corresponds (v.goto target) where
  register := h.register
  stack := h.stack
  cell := h.cell
  channel := h.channel
  pc := hx.symm
  status := h.status

theorem Corresponds.store (h : m.proceed.Corresponds v) (a : BitVec 15) {cell : UInt16}
    {x : BitVec 16} (hx : cell.toNat = x.toNat) :
    ({ m with memory := m.memory.setCell a.toFin cell } : Machine).proceed.Corresponds
      { v with memory := Function.update v.memory a x } where
  register := h.register
  stack := h.stack
  cell b := by
    show (m.memory.setCell a.toFin cell).cell b.toFin = (Function.update v.memory a x b).toNat
    by_cases hab : a = b
    · subst hab
      rw [Memory.cell_setCell_self, Function.update_self, hx]
    · rw [Memory.cell_setCell_of_ne _ _ fun hfin => hab (BitVec.toFin_inj.mp hfin),
        Function.update_of_ne (Ne.symm hab)]
      exact h.cell b
  channel := h.channel
  pc := h.pc
  status := h.status

theorem Corresponds.connect (h : m.proceed.Corresponds v) {channel channel' : Channel}
    (hchannel : channel' = channel) : ({ m with channel := channel } : Machine).proceed.Corresponds
      { v with channel := channel' } where
  register := h.register
  stack := h.stack
  cell := h.cell
  channel := hchannel
  pc := h.pc
  status := h.status

/-! ### Instructions -/

theorem Corresponds.source (h : m.proceed.Corresponds v) (slot : BitVec 16) :
    Mirrors (fun x y => x = (y.toNat : Int)) (m.source (.ofRaw slot.toNat)) (v.value? slot) :=
  (h.value slot).mapError m.blame

theorem destination_mirrors (m : Machine) (slot : BitVec 16) :
    Mirrors Eq (m.destination (.ofRaw slot.toNat)) (VectorMachine.register? slot) :=
  (VectorMachine.destination_mirrors slot).mapError m.blame

theorem Corresponds.back (h : m.proceed.Corresponds v) :
    Mirrors (fun _ a => m.nextPc = (BitVec.toNat a : Int))
      (Memory.checkAddress 32768 m.nextPc) (VectorMachine.address? v.pc) := by
  rw [show v.pc = m.nextPc from h.pc]
  exact (address_mirrors m.nextPc).mono fun _ _ h => h.2

theorem Corresponds.accepts (h : m.proceed.Corresponds v) (code : Int) :
    Mirrors Eq (m.channel.accepts code) (v.channel.accepts code).toOption := by
  rw [show v.channel = m.channel from h.channel]
  exact mirrors_toOption _

theorem Corresponds.next? (h : m.proceed.Corresponds v) :
    Mirrors Eq m.channel.next? v.channel.next?.toOption := by
  rw [show v.channel = m.channel from h.channel]
  exact mirrors_toOption _

/-- Functions that agree on words are combined in the same way. -/
theorem Corresponds.combine (h : m.proceed.Corresponds v) {f : Int → Int → Int}
    {g : BitVec 15 → BitVec 15 → BitVec 15}
    (hfg : ∀ x y : BitVec 15, f x.toNat y.toNat = (g x y).toNat) (target left right : BitVec 16) :
    Mirrors (fun e v' => (m.complete e).Corresponds v')
      (m.combine (.ofRaw target.toNat) (.ofRaw left.toNat) (.ofRaw right.toNat) f)
      (v.combine? target left right g) := by
  refine (h.source left).bind fun x x' hx => (h.source right).bind fun y y' hy =>
    (m.destination_mirrors target).bind fun i i' hi => .ok ?_
  subst hx hy hi
  exact h.assign i (hfg x' y')

/-- **Both machines execute the same instruction**, or it fails on both. -/
theorem Corresponds.execute (h : m.Corresponds v) (op : Opcode) (slot : Nat → BitVec 16) :
    Mirrors (fun e v' =>
        ((m.prepare (.build op fun k => .ofRaw (slot k).toNat)).complete e).Corresponds v')
      ((m.prepare (.build op fun k => .ofRaw (slot k).toNat)).effect
        (.build op fun k => .ofRaw (slot k).toNat))
      (v.execute? op slot) := by
  have ready (hop : op ≠ .input) :
      (m.prepare (.build op fun k => .ofRaw (slot k).toNat)).proceed.Corresponds
        (v.goto (v.pc + op.width)) := by
    have hi := Instruction.opcode_build op fun k => .ofRaw (slot k).toNat
    have hready := h.prepare_of_ne_input (hi.trans_ne hop)
    rwa [hi] at hready
  -- both sides make the same checks in the same order: one link of `Mirrors.bind` for each of them
  cases op with
  | halt => exact .ok { h with status := rfl }
  | noop => exact .ok (ready (by decide))
  | set =>
    have hready := ready (by decide)
    refine (hready.source (slot 1)).bind fun x y hx =>
      (destination_mirrors _ (slot 0)).bind fun i j hi => .ok ?_
    subst hi
    exact hready.assign i hx
  | push =>
    have hready := ready (by decide)
    exact (hready.source (slot 0)).bind fun x y hx => .ok (hready.push hx)
  | pop =>
    have hready := ready (by decide)
    refine (destination_mirrors _ (slot 0)).bind fun i j hi =>
      (hready.pop.mapError _).bind fun popped popped' hpop => .ok ?_
    subst hi
    exact hpop.2.assign i hpop.1
  | equal => exact (ready (by decide)).combine Word.ite_eq_toNat (slot 0) (slot 1) (slot 2)
  | greater => exact (ready (by decide)).combine Word.ite_lt_toNat (slot 0) (slot 1) (slot 2)
  | jump =>
    have hready := ready (by decide)
    exact (hready.source (slot 0)).bind fun x y hx => .ok (hready.goto hx)
  | jumpIf =>
    have hready := ready (by decide)
    refine (hready.source (slot 0)).bind fun c c' hc => .ite ?_ ?_ (.ok hready)
    · rw [hc, ne_eq, Word.toNat_eq_zero_iff]
    · exact (hready.source (slot 1)).bind fun x y hx => .ok (hready.goto hx)
  | jumpUnless =>
    have hready := ready (by decide)
    refine (hready.source (slot 0)).bind fun c c' hc => .ite ?_ ?_ (.ok hready)
    · rw [hc, Word.toNat_eq_zero_iff]
    · exact (hready.source (slot 1)).bind fun x y hx => .ok (hready.goto hx)
  | add => exact (ready (by decide)).combine Word.reduce_add (slot 0) (slot 1) (slot 2)
  | multiply => exact (ready (by decide)).combine Word.reduce_mul (slot 0) (slot 1) (slot 2)
  | modulo =>
    -- the divisor is resolved once for the check and once for the remainder
    have hready := ready (by decide)
    refine (hready.source (slot 2)).bind fun y y' hy => .ite ?_ (.error _) ?_
    · rw [hy, Word.toNat_eq_zero_iff]
    · exact hready.combine Word.reduce_fmod (slot 0) (slot 1) (slot 2)
  | and => exact (ready (by decide)).combine Word.reduce_conj (slot 0) (slot 1) (slot 2)
  | or => exact (ready (by decide)).combine Word.reduce_disj (slot 0) (slot 1) (slot 2)
  | not =>
    have hready := ready (by decide)
    refine (hready.source (slot 1)).bind fun x y hx =>
      (destination_mirrors _ (slot 0)).bind fun i j hi => .ok ?_
    subst hi hx
    exact hready.assign i (Word.exclusive_mask y)
  | readCell =>
    have hready := ready (by decide)
    refine (hready.source (slot 1)).bind fun a b ha => ?_
    subst ha
    show Mirrors _ (Except.mapError _ (Memory.read _ (b.toFin.val : Int)) >>= _) _
    rw [Memory.read_val]
    refine (destination_mirrors _ (slot 0)).bind fun i j hi => .ok ?_
    subst hi
    exact hready.assign i ((congrArg Word.reduce (hready.cell b)).trans (Word.reduce_toNat_cell _))
  | writeCell =>
    -- the number of a vector is an address and fits into a cell, so the last two checks pass
    have hready := ready (by decide)
    refine (hready.source (slot 0)).bind fun a b ha =>
      (hready.source (slot 1)).bind fun x y hx => ?_
    subst ha hx
    rw [Memory.checkAddress_toNat, Memory.toCell_word]
    exact .ok (hready.store b rfl)
  | call =>
    have hready := ready (by decide)
    exact (hready.source (slot 0)).bind fun x y hx =>
      (hready.back.mapError _).bind fun i back hback => .ok ((hready.push hback).goto hx)
  | ret =>
    have hready := ready (by decide)
    exact (hready.pop.mapError _).bind fun popped popped' hpop => .ok (hpop.2.goto hpop.1)
  | output =>
    have hready := ready (by decide)
    refine (hready.source (slot 0)).bind fun x y hx => ?_
    subst hx
    exact ((hready.accepts y.toNat).mapError _).bind fun _ _ _ =>
      .ok (hready.connect (congrArg (Channel.emit y.toNat) hready.channel))
  | input =>
    -- here the device has been prepared, but only if the operand names a register
    refine ((VectorMachine.destination_mirrors (slot 0)).passed.mapError _).bind fun i j hi => ?_
    obtain ⟨rfl, hdestination⟩ := hi
    have hready := h.prepare (.input (.ofRaw (slot 0).toNat)) v.channel.prepare (by
      rw [channel_prepare_eq, if_pos (readsInput_of_destination hdestination), h.channel])
    refine (hready.next?.mapError _).bind fun next next' hnext => ?_
    subst hnext
    cases next with
    | none => exact .error _
    | some code =>
      exact .ok ((hready.connect (congrArg Channel.advance hready.channel)).assign i
        (Word.reduce_eq_toNat_ofInt code))

/-! ### Runs -/

/-- **A step of one machine is a step of the other**: it is completed exactly when the vector
machine has a next state, and then the machines correspond again. -/
theorem Corresponds.step (h : m.Corresponds v) :
    (m.step.2 = .completed ↔ v.step?.isSome) ∧
      ∀ v', v.step? = some v' → m.step.1.Corresponds v' := by
  cases hv : v.halted with
  | true =>
    have hhalted : m.status ≠ .running := by
      rw [h.status, hv]
      rintro ⟨⟩
    rw [step_of_not_running hhalted, VectorMachine.step?, hv]
    simp
  | false =>
    have hrun : m.status = .running := by
      rw [h.status, hv]
      rfl
    have hstep : v.step? = v.fetch?.bind fun fetched =>
        v.execute? fetched.1 fun k => fetched.2.getD k 0 := by
      rw [VectorMachine.step?, hv]
      rfl
    cases hi : m.fetch with
    | error fault =>
      rw [step_of_fetch_eq_error hrun hi, hstep, h.fetch.eq_none hi]
      simp
    | ok i =>
      obtain ⟨⟨op, slots⟩, hfetched, rfl⟩ := h.fetch.exists_some hi
      have hexecute := h.execute op fun k => slots.getD k 0
      rw [hstep, hfetched, Option.bind_some]
      cases he : (m.prepare (.build op fun k => .ofRaw (slots.getD k 0).toNat)).effect
          (.build op fun k => .ofRaw (slots.getD k 0).toNat) with
      | error e =>
        rw [step_of_effect_eq_error hrun hi he, hexecute.eq_none he]
        simp
      | ok e =>
        obtain ⟨v', hv', hcorresponds⟩ := hexecute.exists_some he
        rw [step_of_performs hrun hi (effect_eq_ok_iff.mp he), hv']
        simpa using hcorresponds

/-- The machine read as a vector machine: the low bits of registers and stack items, and all bits
of the cells. -/
def vectors (m : Machine) : VectorMachine where
  registers i := .ofInt 15 (m.registers.get i)
  stack := m.stack.items.map (.ofInt 15)
  memory a := (m.memory.cells[a.toFin]).toBitVec
  channel := m.channel
  pc := m.pc
  halted := m.status = .halted

theorem HoldsWords.corresponds (h : m.HoldsWords) (hrun : m.status = .running) :
    m.Corresponds m.vectors where
  register i := by
    rw [← Word.reduce_of_isWord (h.register i)]
    exact Word.reduce_eq_toNat_ofInt _
  stack := by
    show m.stack.items = (m.stack.items.map (BitVec.ofInt 15)).map fun x => (x.toNat : Int)
    rw [List.map_map, List.map_congr_left (g := id), List.map_id]
    intro x hx
    exact (Word.reduce_eq_toNat_ofInt x).symm.trans (Word.reduce_of_isWord (h.item x hx))
  cell a := rfl
  channel := rfl
  pc := rfl
  status := by
    rw [hrun]
    simp [vectors, hrun]

/-- What holds of each single step of the two machines holds of their runs. -/
theorem Corresponds.run (h : m.Corresponds v) (n : Nat) :
    ((∀ k < n, (m.after k).step.2 = .completed) ↔ (v.run? n).isSome) ∧
      ∀ v', v.run? n = some v' → (m.after n).Corresponds v' := by
  induction n with
  | zero =>
    refine ⟨by simp [VectorMachine.run?], ?_⟩
    rintro v' ⟨⟩
    exact h
  | succ n ih =>
    obtain ⟨hcompleted, hcorresponds⟩ := ih
    rw [Nat.forall_lt_succ_right, hcompleted, VectorMachine.run?]
    -- a run that has got stuck stays stuck, and from corresponding machines one more step is taken
    cases hlast : v.run? n with
    | none => simp
    | some last =>
      obtain ⟨hstep, hnext⟩ := (hcorresponds last hlast).step
      rw [after_succ, Option.bind_eq_bind, Option.bind_some, hstep]
      exact ⟨by simp, hnext⟩

/-- **The machine refines a machine on bit vectors.**  A running machine whose registers and stack
items are words corresponds to the vector machine that one reads from it.  For every number of
steps, the one machine completes as many steps exactly when the other one makes them, and then the
two correspond. -/
theorem refines_vectors (hrun : m.status = .running) (hwords : m.HoldsWords) :
    m.Corresponds m.vectors ∧ ∀ n, ((∀ k < n, (m.after k).step.2 = .completed) ↔
        (m.vectors.run? n).isSome) ∧
      ∀ v, m.vectors.run? n = some v → (m.after n).Corresponds v :=
  ⟨hwords.corresponds hrun, (hwords.corresponds hrun).run⟩

/-- A register that is multiplied by itself: the square of the greatest word is 1 in both machines.
-/
theorem refines_vectors_of_square : ∃ first v,
    Execution.start [10, 32768, 32768, 32768] .detached .default [(0, 32767)] = .ok first ∧
      first.machine.vectors.run? 1 = some v ∧ (first.machine.after 1).Corresponds v ∧
      v.registers 0 = 1 := by
  have himage : Image.Loadable [10, 32768, 32768, 32768] := by decide
  have hpresets : ∀ entry ∈ [((0 : Int), (32767 : Int))], Word.IsWord entry.2 := by decide
  obtain ⟨first, memory, hstart, hload, hfirst⟩ :=
    Execution.exists_start himage .detached .default [(0, 32767)]
  have hrun : first.machine.status = .running := by
    rw [hfirst]
    rfl
  have hwords : first.machine.HoldsWords := by
    rw [hfirst]
    exact preset_holdsWords .detached memory (Execution.distinct_forall hpresets)
  have hfetch : first.machine.fetch =
      .ok (.multiply (.register 0) (.register 0) (.register 0)) := by
    rw [hfirst]
    exact fetch_of_image hload (a := 0) rfl (by decide) rfl rfl
  have hvalue : first.machine.value (.register 0) = .ok 32767 := by
    rw [hfirst]
    rfl
  have hstep := step_of_performs hrun hfetch (.combine .multiply hvalue hvalue rfl)
  obtain ⟨-, hruns⟩ := refines_vectors hrun hwords
  obtain ⟨hcompleted, hcorresponds⟩ := hruns 1
  have hsome : (first.machine.vectors.run? 1).isSome := by
    refine hcompleted.mp fun k hk => ?_
    obtain rfl : k = 0 := by omega
    rw [after_zero, hstep]
  obtain ⟨v, hv⟩ := Option.isSome_iff_exists.mp hsome
  refine ⟨first, v, hstart, hv, hcorresponds v hv, ?_⟩
  have hregister := (hcorresponds v hv).register 0
  rw [after_succ, after_zero, hstep, registers_complete] at hregister
  have hone : (first.machine.registers.set 0 (Word.reduce (32767 * 32767))).get 0 = 1 := by
    rw [Registers.get_set_self]
    rfl
  rw [← BitVec.toNat_inj]
  exact Int.natCast_inj.mp (hregister.symm.trans hone)

end Machine

end WordMachine
