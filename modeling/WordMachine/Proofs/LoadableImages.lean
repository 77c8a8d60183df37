/-
  Images that have been read can be loaded.

  Whatever a binary or a text image is decoded to, there are no more words than the memory has
  cells, and each of them fits into a cell (`Image.loadable_of_ofBytes`): both formats check the
  upper bound of a word, and neither has a way to write a negative one.  So the lists that come out of
  the two decoders are those that the memory takes (`Image.decoded_iff_loaded`).

  A host program can make lists of its own.  A negative word in such a list is seen by the memory but
  not by the check of the decoders, which the encoder makes as well: `Image.checks_agree_iff` says on
  which lists the three are of one mind.
-/
import WordMachine.Image.File
import WordMachine.Proofs.BinaryImages
import WordMachine.Proofs.MemoryLedger

namespace WordMachine

namespace Image

/-- A list of words that has been checked is loadable if no word is negative. -/
theorem loadable_of_check {words words' : List Int} (h : check words = .ok words')
    (hnonneg : ∀ word ∈ words, 0 ≤ word) : Loadable words' := by
  obtain ⟨rfl, hlength, hupper⟩ := check_eq_ok_iff.mp h
  exact ⟨hlength, fun word hword => ⟨hnonneg word hword, hupper word hword⟩⟩

theorem Binary.loadable_of_decode {bytes : List UInt8} {words : List Int}
    (h : decode bytes = .ok words) : Loadable words := by
  obtain ⟨-, hlength, rfl⟩ := decode_eq_ok_iff.mp h
  exact loadable_words hlength

namespace Textual

/-- No numeral has a sign. -/
theorem Spells.nonneg {text : List Char} {words : List Int} (h : Spells text words) :
    ∀ word ∈ words, 0 ≤ word := by
  rcases h with ⟨-, rfl⟩ | hnumerals
  · exact List.forall_mem_nil _
  · induction hnumerals with
    | last | trailing => exact List.forall_mem_singleton.mpr (Int.natCast_nonneg _)
    | next _ _ _ _ ih => exact List.forall_mem_cons.mpr ⟨Int.natCast_nonneg _, ih⟩

theorem loadable_of_decode {text : List Char} {words : List Int} (h : decode text = .ok words) :
    Loadable words := by
  unfold decode at h
  dsimp only at h
  split at h
  · cases h
  · cases h
  · rename_i all hread
    obtain ⟨words', hwords, hall⟩ := comes_of_readTokens hread
    obtain rfl : all.toList = words' := hall
    exact loadable_of_check (Check.mapError_eq_ok_iff.mp h) hwords.nonneg

end Textual

/-- **What is read from a file can be loaded**, whatever its format is. -/
theorem loadable_of_ofBytes {format : Format} {bytes : List UInt8} {words : List Int}
    (h : ofBytes format bytes = .ok words) : Loadable words := by
  cases format with
  | binary => exact Binary.loadable_of_decode (Check.mapError_eq_ok_iff.mp h)
  | text =>
    unfold ofBytes at h
    dsimp only at h
    cases hfile : fileText? bytes with
    | none =>
      rw [hfile] at h
      cases h
    | some text =>
      rw [hfile] at h
      dsimp only at h
      split at h
      · rename_i words' hdecode
        cases h
        exact Textual.loadable_of_decode hdecode
      · cases h
      · cases h

/-- A file is **readable** in a format when it holds bytes only, or else UTF-8 in which no run of
digits outside of comments is longer than 4300 digits. -/
def Readable (format : Format) (bytes : List UInt8) : Prop :=
  format = .text → ∃ text, fileText? bytes = some text ∧ Textual.ShortNumerals text

/-- Nothing but an image error comes out of a readable file that holds no image. -/
theorem ofBytes_cases {format : Format} {bytes : List UInt8} (h : Readable format bytes) :
    (∃ words, ofBytes format bytes = .ok words) ∨
      ∃ e, ofBytes format bytes = .error (.image e) := by
  cases format with
  | binary =>
    cases hdecode : Binary.decode bytes with
    | ok words => exact .inl ⟨words, by rw [ofBytes, hdecode]; rfl⟩
    | error e => exact .inr ⟨e, by rw [ofBytes, hdecode]; rfl⟩
  | text =>
    obtain ⟨text, htext, hshort⟩ := h rfl
    rcases Textual.decode_cases hshort with ⟨words, -, hdecode⟩ | ⟨-, position, hdecode⟩
    · cases hcheck : check words with
      | ok words' =>
        rw [hcheck] at hdecode
        exact .inl ⟨words', by simp only [ofBytes, htext, hdecode, Check.ok_mapError]⟩
      | error e =>
        rw [hcheck] at hdecode
        exact .inr ⟨e, by simp only [ofBytes, htext, hdecode, Check.error_mapError]⟩
    · exact .inr ⟨.malformed position, by simp only [ofBytes, htext, hdecode]⟩

/-- What a memory of the standard size takes is loadable. -/
theorem loadable_of_load {m m' : Memory 32768} {words : List Int} (h : m.load words = .ok m') :
    Loadable words := by
  obtain ⟨-, hlength, hwords, -⟩ := Memory.load_eq_ok_iff.mp h
  constructor
  · omega
  · intro word hword
    have hrange := hwords word hword
    omega

/-- **An image that has been read fits into the machine**, and nothing else does.  Some bytes or some
text are decoded to a list of words exactly when a fresh machine loads the list.  The memory then
holds its words with zeros behind them and knows their number, and the list is encoded as well. -/
theorem decoded_iff_loaded (words : List Int) (channel : Channel) :
    ((∃ bytes, Binary.decode bytes = .ok words) ∨ ∃ text, Textual.decode text = .ok words) ↔
      ∃ m, (Machine.fresh channel).load words = .ok m ∧
        m.memory.toList = words ++ List.replicate (32768 - words.length) 0 ∧
        m.memory.loadedSize = words.length ∧ ∃ bytes, Binary.encode words = .ok bytes := by
  constructor
  · intro hdecoded
    have hloadable : Loadable words := by
      rcases hdecoded with ⟨bytes, hbytes⟩ | ⟨text, htext⟩
      · exact Binary.loadable_of_decode hbytes
      · exact Textual.loadable_of_decode htext
    obtain ⟨memory, hmemory, hload⟩ := Machine.exists_load_fresh hloadable
    have hsize : memory.loadedSize = words.length := by
      obtain ⟨-, -, -, rfl⟩ := Memory.load_eq_ok_iff.mp hmemory
      rfl
    exact ⟨_, hload channel, Memory.toList_load_zero hmemory, hsize, _,
      Binary.encode_eq_ok_iff.mpr ⟨hloadable, rfl⟩⟩
  · rintro ⟨m, hload, -⟩
    obtain ⟨memory, hmemory, -⟩ := Machine.load_eq_ok_iff.mp hload
    exact .inr ⟨_, Textual.decode_numerals (loadable_of_load hmemory)⟩

/-! ### Lists of a host program -/

/-- A list of words is **overlooked** when negative words are all that is wrong with it. -/
structure Overlooked (words : List Int) : Prop where
  length_le : words.length ≤ 32768
  upper : ∀ word ∈ words, word ≤ 65535
  negative : ∃ word ∈ words, word < 0

variable {words : List Int}

theorem Overlooked.not_loadable (h : Overlooked words) : ¬ Loadable words := by
  intro hloadable
  obtain ⟨word, hword, hnegative⟩ := h.negative
  have hrange := hloadable.word_range word hword
  omega

/-- Behind that check the encoder finds a negative word, and has no image error for it. -/
theorem Overlooked.encode (h : Overlooked words) :
    ∃ word ∈ words, word < 0 ∧ Binary.encode words = .error (.negative word) := by
  have hcheck : Image.check words = .ok words := check_eq_ok_iff.mpr ⟨rfl, h.length_le, h.upper⟩
  cases hfind : words.find? (· < 0) with
  | none =>
    obtain ⟨word, hword, hnegative⟩ := h.negative
    have hnot := List.find?_eq_none.mp hfind word hword
    simp [hnegative] at hnot
  | some word =>
    have hnegative := List.find?_some hfind
    rw [decide_eq_true_eq] at hnegative
    refine ⟨word, List.mem_of_find?_eq_some hfind, hnegative, ?_⟩
    simp only [Binary.encode, hcheck, hfind]

/-- The memory names a negative word as one that is not a sixteen-bit number. -/
theorem Overlooked.load (h : Overlooked words) : ∃ word offset, word < 0 ∧
    (Memory.zero 32768).load words = .error (.image (.wordOutOfRange word offset)) := by
  cases hload : (Memory.zero 32768).load words with
  | ok m => exact absurd (loadable_of_load hload) h.not_loadable
  | error e =>
    have hlength := h.length_le
    rcases Memory.load_eq_error_iff.mp hload with
      ⟨hfits, -⟩ | ⟨-, word, offset, rfl, hword, hbad, -⟩
    · omega
    · have hupper := h.upper word (List.mem_of_getElem? hword)
      exact ⟨word, offset, by omega, rfl⟩

end Image

end WordMachine
