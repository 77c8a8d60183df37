/-
  Loading an image.

  An image is loaded exactly when it fits behind its base and all of its words are sixteen-bit
  numbers (`Memory.load_eq_ok_iff`), and then the cells from the base on hold its words and all
  other cells are as before (`Memory.cell_load`).  A fresh machine therefore takes every loadable
  image (`Execution.exists_start`).
-/
import WordMachine.Execution
import WordMachine.Proofs.Rules
import Mathlib.Data.List.GetD

namespace WordMachine

/-- A list of words is **loadable** when it fits into the memory of a machine and each of its words
is a sixteen-bit number. -/
structure Image.Loadable (words : List Int) : Prop where
  /-- The image is not longer than the memory. -/
  length_le : words.length ≤ 32768
  /-- Each word can be held by a cell. -/
  word_range : ∀ word ∈ words, 0 ≤ word ∧ word ≤ 65535

instance (words : List Int) : Decidable (Image.Loadable words) :=
  decidable_of_iff (words.length ≤ 32768 ∧ ∀ word ∈ words, 0 ≤ word ∧ word ≤ 65535)
    ⟨fun h => ⟨h.1, h.2⟩, fun h => ⟨h.length_le, h.word_range⟩⟩

namespace Memory

variable {size : Nat}

theorem firstBadWord_eq_none_iff {offset : Nat} {words : List Int} :
    firstBadWord offset words = none ↔ ∀ word ∈ words, 0 ≤ word ∧ word < 65536 := by
  induction words generalizing offset with
  | nil => simp [firstBadWord]
  | cons word rest ih =>
    rw [firstBadWord, List.forall_mem_cons]
    split
    · rename_i hword
      rw [ih]
      exact ⟨fun h => ⟨hword, h⟩, fun h => h.2⟩
    · rename_i hword
      simp only [reduceCtorEq, false_iff]
      exact fun h => hword h.1

/-- **When an image is loaded**, and what its loading leaves behind. -/
theorem load_eq_ok_iff {m m' : Memory size} {words : List Int} {base : Int} :
    m.load words base = .ok m' ↔ 0 ≤ base ∧ base + words.length ≤ size ∧
      (∀ word ∈ words, 0 ≤ word ∧ word < 65536) ∧
      m' = ⟨store m.cells base.toNat words, words.length⟩ := by
  unfold load
  split
  · simp only [reduceCtorEq, false_iff]
    omega
  · rename_i hfits
    cases hbad : firstBadWord 0 words with
    | some bad =>
      have hwords : ¬ ∀ word ∈ words, 0 ≤ word ∧ word < 65536 := by
        rw [← firstBadWord_eq_none_iff, hbad]
        exact Option.some_ne_none bad
      simp [hwords]
    | none =>
      rw [firstBadWord_eq_none_iff] at hbad
      simp only [Except.ok.injEq]
      constructor
      · rintro rfl
        exact ⟨by omega, by omega, hbad, rfl⟩
      · exact fun h => h.2.2.2.symm

/-- The cells after words have been stored: the words themselves in their places, and what was there
before everywhere else. -/
theorem getElem_store (cells : Vector UInt16 size) (address : Nat) (words : List Int)
    (hfits : address + words.length ≤ size) (j : Nat) (hj : j < size) :
    (store cells address words)[j] =
      if address ≤ j ∧ j < address + words.length then
        UInt16.ofNat (words.getD (j - address) 0).toNat
      else cells[j] := by
  induction words generalizing cells address with
  | nil =>
    rw [List.length_nil, if_neg (by omega)]
    rfl
  | cons word rest ih =>
    rw [List.length_cons] at hfits ⊢
    rw [store, ih _ (address + 1) (by omega), Vector.getElem_setIfInBounds]
    -- in front of the first word, at it, or behind it
    rcases Nat.lt_trichotomy j address with hlt | rfl | hgt
    · rw [if_neg (by omega), if_neg (by omega), if_neg (by omega)]
    · rw [if_neg (by omega), if_pos rfl, if_pos (by omega), Nat.sub_self]
      rfl
    · obtain ⟨k, rfl⟩ : ∃ k, j = address + 1 + k := ⟨j - address - 1, by omega⟩
      rw [show address + 1 + k - (address + 1) = k by omega,
        show address + 1 + k - address = k + 1 by omega, List.getD_cons_succ,
        if_neg (show address ≠ address + 1 + k by omega)]
      by_cases hk : k < rest.length
      · rw [if_pos (by omega), if_pos (by omega)]
      · rw [if_neg (by omega), if_neg (by omega)]

/-- **The cells of a loaded image**: its words from the base on, all other cells as before. -/
theorem cell_load {m m' : Memory size} {words : List Int} {base : Int}
    (h : m.load words base = .ok m') (a : Fin size) :
    m'.cell a = if base ≤ a.val ∧ a.val < base + words.length then words.getD (a.val - base).toNat 0
      else m.cell a := by
  obtain ⟨hbase, hfits, hwords, rfl⟩ := load_eq_ok_iff.mp h
  unfold cell
  rw [Fin.getElem_fin, getElem_store _ _ _ (by omega)]
  by_cases hin : base ≤ a.val ∧ a.val < base + words.length
  · rw [if_pos (by omega), if_pos hin, show (a.val - base).toNat = a.val - base.toNat by omega]
    have hk : a.val - base.toNat < words.length := by omega
    have hword := hwords (words.getD (a.val - base.toNat) 0) (by
      rw [List.getD_eq_getElem _ _ hk]
      exact List.getElem_mem hk)
    rw [UInt16.toNat_ofNat']
    omega
  · rw [if_neg (by omega), if_neg hin]
    rfl

/-- The cells of an image in a fresh memory: its words, and zeros behind them. -/
theorem cell_load_zero {m : Memory size} {words : List Int}
    (h : (zero size).load words = .ok m) (a : Fin size) : m.cell a = words.getD a 0 := by
  rw [cell_load h]
  split
  · rw [show ((a.val : Int) - 0).toNat = a.val by omega]
  · rename_i hout
    rw [List.getD_eq_default _ _ (by omega)]
    simp [cell, zero]

theorem read_load_zero {m : Memory size} {words : List Int} (h : (zero size).load words = .ok m)
    {a : Nat} (ha : a < size) : m.read a = .ok (words.getD a 0) := by
  rw [m.read_val ⟨a, ha⟩, cell_load_zero h]

/-- All cells of a fresh memory once an image has been loaded: its words, and zeros up to the end. -/
theorem toList_load_zero {m : Memory size} {words : List Int}
    (h : (zero size).load words = .ok m) :
    m.toList = words ++ List.replicate (size - words.length) 0 := by
  have hfits : words.length ≤ size := by
    obtain ⟨-, hlength, -⟩ := load_eq_ok_iff.mp h
    omega
  apply List.ext_getElem
  · simp [toList, hfits]
  · intro a ha _
    have hsize : a < size := by simpa [toList] using ha
    have hcell : m.toList[a] = m.cell ⟨a, hsize⟩ := by simp [toList, cell]
    rw [hcell, cell_load_zero h, List.getElem_append]
    split
    · rename_i hin
      rw [List.getD_eq_getElem _ _ hin]
    · rename_i hout
      rw [List.getElem_replicate, List.getD_eq_default _ _ (Nat.le_of_not_lt hout)]

/-- A memory of the standard size takes every loadable image. -/
theorem exists_load {image : List Int} (h : Image.Loadable image) (m : Memory 32768) :
    ∃ m', m.load image = .ok m' := by
  refine ⟨_, load_eq_ok_iff.mpr ⟨by omega, ?_, ?_, rfl⟩⟩
  · have := h.length_le
    omega
  · intro word hword
    have := h.word_range word hword
    omega

end Memory

namespace Machine

@[simp] theorem memory_preset (m : Machine) (values : List (Int × Int)) :
    (m.preset values).memory = m.memory := rfl

/-- What holds of all registers and of all preset values holds of the registers after presetting. -/
theorem preset_forall {P : Int → Prop} (values : List (Int × Int)) (m : Machine)
    (hm : ∀ i, P (m.registers.get i)) (hvalues : ∀ entry ∈ values, P entry.2) (i : Fin 8) :
    P ((m.preset values).registers.get i) := by
  induction values generalizing m with
  | nil => exact hm i
  | cons entry rest ih =>
    rw [List.forall_mem_cons] at hvalues
    refine ih { m with registers := m.registers.set (Registers.select entry.1) entry.2 } ?_
      hvalues.2
    intro j
    by_cases hj : Registers.select entry.1 = j
    · subst hj
      rw [Registers.get_set_self]
      exact hvalues.1
    · rw [Registers.get_set_of_ne _ _ hj]
      exact hm j

end Machine

/-- Loading an image changes the memory only. -/
theorem Machine.load_eq_ok_iff {m m' : Machine} {words : List Int} {base : Int} :
    m.load words base = .ok m' ↔
      ∃ memory, m.memory.load words base = .ok memory ∧ m' = { m with memory := memory } := by
  unfold load
  split
  · rename_i h
    simp [h]
  · rename_i h
    simp [h, eq_comm]

/-- A fresh machine takes every loadable image, whatever it is connected to. -/
theorem Machine.exists_load_fresh {image : List Int} (h : Image.Loadable image) :
    ∃ memory, (Memory.zero 32768).load image = .ok memory ∧ ∀ channel,
      (fresh channel).load image = .ok { fresh channel with memory := memory } := by
  obtain ⟨memory, hmemory⟩ := (Memory.zero 32768).exists_load h
  exact ⟨memory, hmemory, fun channel => load_eq_ok_iff.mpr ⟨memory, hmemory, rfl⟩⟩

/-- A machine **starts** an image when it has the image in an otherwise empty memory and has not
done anything yet.  Its registers may be preset. -/
structure Machine.Starts (m : Machine) (image : List Int) (channel : Channel) : Prop where
  loaded : (Memory.zero 32768).load image = .ok m.memory
  running : m.status = .running
  pc : m.pc = 0
  stack : m.stack = .empty
  channel : m.channel = channel

theorem Machine.starts_of_load {m : Machine} {image : List Int} {channel : Channel}
    (h : (fresh channel).load image = .ok m) : m.Starts image channel := by
  obtain ⟨memory, hmemory, rfl⟩ := load_eq_ok_iff.mp h
  exact ⟨hmemory, rfl, rfl, rfl, rfl⟩

theorem Machine.starts_preset {memory : Memory 32768} {image : List Int}
    (h : (Memory.zero 32768).load image = .ok memory) (channel : Channel)
    (presets : List (Int × Int)) :
    (({ fresh channel with memory := memory } : Machine).preset presets).Starts image channel :=
  ⟨h, rfl, rfl, rfl, rfl⟩

/-- A fresh machine under observation takes every loadable image as well. -/
theorem Monitor.exists_load_fresh {image : List Int} (h : Image.Loadable image) (channel : Channel)
    (trace dump : Bool) : ∃ monitor memory, (fresh channel trace dump).load image = .ok monitor ∧
      (Memory.zero 32768).load image = .ok memory ∧
      monitor.machine = { Machine.fresh channel with memory := memory } ∧
      monitor.trace = trace := by
  obtain ⟨memory, hmemory, hload⟩ := Machine.exists_load_fresh h
  unfold load fresh
  simp only [hload]
  exact ⟨_, memory, rfl, hmemory, rfl, rfl⟩

namespace Execution

/-- Listing each register once does not bring in new values. -/
theorem distinct_forall {P : Int → Prop} {presets : List (Int × Int)}
    (h : ∀ entry ∈ presets, P entry.2) : ∀ entry ∈ distinct presets, P entry.2 := by
  unfold distinct
  refine List.foldlRecOn (motive := fun done : List (Int × Int) => ∀ entry ∈ done, P entry.2)
    presets _ (fun _ h => absurd h List.not_mem_nil) ?_
  intro done hdone entry hentry
  dsimp only
  split
  · intro other hother
    obtain ⟨old, hold, rfl⟩ := List.mem_map.mp hother
    split
    · exact h entry hentry
    · exact hdone old hold
  · intro other hother
    rcases List.mem_append.mp hother with hold | hnew
    · exact hdone other hold
    · rw [List.mem_singleton.mp hnew]
      exact h entry hentry

/-- **A loadable image starts.**  The machine is a fresh one with the image in its memory and the
registers preset. -/
theorem exists_start {image : List Int} (h : Image.Loadable image) (channel : Channel)
    (settings : Settings) (presets : List (Int × Int)) :
    ∃ first memory, start image channel settings presets = .ok first ∧
      (Memory.zero 32768).load image = .ok memory ∧
      first.machine =
        ({ Machine.fresh channel with memory := memory } : Machine).preset (distinct presets) := by
  obtain ⟨monitor, memory, hload, hmemory, hmachine, -⟩ :=
    Monitor.exists_load_fresh h channel settings.trace.holds settings.dump.holds
  refine ⟨{ monitor with machine := monitor.machine.preset (distinct presets) }, memory, ?_,
    hmemory, ?_⟩
  · simp only [start, hload]
  · rw [hmachine]

/-- An execution starts its image. -/
theorem exists_starts {image : List Int} (h : Image.Loadable image) (channel : Channel)
    (settings : Settings) (presets : List (Int × Int)) : ∃ first,
      start image channel settings presets = .ok first ∧ first.machine.Starts image channel := by
  obtain ⟨first, memory, hstart, hload, hfirst⟩ := exists_start h channel settings presets
  refine ⟨first, hstart, ?_⟩
  rw [hfirst]
  exact Machine.starts_preset hload channel _

end Execution

end WordMachine
