/-
  Binary images are one to one with loadable lists of words.

  `Binary.words` reads a list of bytes two by two, and `Binary.decode` gives these words when it
  gives any (`decode_eq_ok_iff`).  Reading takes back what `wordBytes` has written, and writing
  takes back what was read where no byte is left over (`words_flatMap_wordBytes`,
  `flatMap_wordBytes_words`).  Numerals with commas between them are a second form of the same words
  (`Textual.decode_numerals`).  `binary_images_bijective` puts the three together.
-/
import WordMachine.Image.Binary
import WordMachine.Proofs.Loading
import WordMachine.Proofs.TextDecoding

namespace WordMachine

namespace Image

/-- A check lets loadable words pass. -/
theorem Loadable.check {words : List Int} (h : Loadable words) : check words = .ok words :=
  check_eq_ok_iff.mpr ⟨rfl, h.length_le, fun word hword => (h.word_range word hword).2⟩

namespace Binary

/-! ### Words and bytes -/

/-- The words that bytes stand for two by two. -/
def words : List UInt8 → List Int
  | [] => []
  | [_] => []
  | low :: high :: rest => (low.toNat + 256 * high.toNat : Nat) :: words rest

theorem toList_pairUp (done : Array Int) (bytes : List UInt8) :
    (pairUp done bytes).toList = done.toList ++ words bytes := by
  induction bytes using words.induct generalizing done with
  | case1 => exact (List.append_nil _).symm
  | case2 byte => exact (List.append_nil _).symm
  | case3 low high rest ih =>
    rw [pairUp, ih, Array.toList_push, List.append_assoc]
    rfl

theorem length_words (bytes : List UInt8) : (words bytes).length = bytes.length / 2 := by
  induction bytes using words.induct with
  | case1 => rfl
  | case2 byte => exact (Nat.div_eq_of_lt Nat.one_lt_two).symm
  | case3 low high rest ih =>
    simp only [words, List.length_cons, ih]
    omega

/-- Two bytes make a sixteen-bit number. -/
theorem word_range_words (bytes : List UInt8) : ∀ word ∈ words bytes, 0 ≤ word ∧ word ≤ 65535 := by
  induction bytes using words.induct with
  | case1 => exact fun word hword => absurd hword List.not_mem_nil
  | case2 byte => exact fun word hword => absurd hword List.not_mem_nil
  | case3 low high rest ih =>
    have hlow := low.toNat_lt
    have hhigh := high.toNat_lt
    exact List.forall_mem_cons.mpr ⟨by omega, ih⟩

/-- The bytes of a sixteen-bit number make it up, the lower one first. -/
theorem exists_wordBytes {word : Int} (h : 0 ≤ word ∧ word ≤ 65535) :
    ∃ low high : UInt8, wordBytes word = [low, high] ∧
      word = (low.toNat + 256 * high.toNat : Nat) := by
  refine ⟨_, _, rfl, ?_⟩
  have hlow := UInt8.toNat_ofNat' (n := word.toNat % 256)
  have hhigh := UInt8.toNat_ofNat' (n := word.toNat / 256)
  omega

/-- Two bytes are the bytes of the number that they make up. -/
theorem wordBytes_pair (low high : UInt8) :
    wordBytes (low.toNat + 256 * high.toNat : Nat) = [low, high] := by
  have hlow := low.toNat_lt
  have hmod : (low.toNat + 256 * high.toNat) % 256 = low.toNat := by omega
  have hdiv : (low.toNat + 256 * high.toNat) / 256 = high.toNat := by omega
  simp only [wordBytes, Int.toNat_natCast, hmod, hdiv, UInt8.ofNat_toNat]

theorem length_flatMap_wordBytes (ws : List Int) :
    (ws.flatMap wordBytes).length = 2 * ws.length := by
  induction ws with
  | nil => rfl
  | cons word rest ih =>
    rw [List.flatMap_cons, List.length_append, ih, List.length_cons]
    simp only [wordBytes, List.length_cons, List.length_nil]
    omega

/-- Where the two bytes of each word stand. -/
theorem getElem?_flatMap_wordBytes {ws : List Int} {k : Nat} {word : Int}
    (h : ws[k]? = some word) (j : Nat) (hj : j < 2) :
    (ws.flatMap wordBytes)[2 * k + j]? = (wordBytes word)[j]? := by
  induction ws generalizing k with
  | nil => cases h
  | cons first rest ih =>
    rw [List.flatMap_cons]
    cases k with
    | zero =>
      cases h
      rw [Nat.mul_zero, Nat.zero_add, List.getElem?_append_left hj]
    | succ k =>
      have hbehind : (wordBytes first).length ≤ 2 * (k + 1) + j := by
        show 2 ≤ _
        omega
      rw [List.getElem?_append_right hbehind, ← ih h]
      exact congrArg _ (show 2 * (k + 1) + j - 2 = 2 * k + j by omega)

/-- **What has been written is read back.** -/
theorem words_flatMap_wordBytes {ws : List Int} (h : ∀ word ∈ ws, 0 ≤ word ∧ word ≤ 65535) :
    words (ws.flatMap wordBytes) = ws := by
  induction ws with
  | nil => rfl
  | cons word rest ih =>
    rw [List.forall_mem_cons] at h
    obtain ⟨low, high, hbytes, hword⟩ := exists_wordBytes h.1
    rw [List.flatMap_cons, hbytes, List.cons_append, List.cons_append, List.nil_append, words,
      ih h.2, ← hword]

/-- **What has been read is written back**, unless a byte is left over. -/
theorem flatMap_wordBytes_words {bytes : List UInt8} (h : bytes.length % 2 = 0) :
    (words bytes).flatMap wordBytes = bytes := by
  induction bytes using words.induct with
  | case1 => rfl
  | case2 byte => cases h
  | case3 low high rest ih =>
    have hrest : rest.length % 2 = 0 := by
      simp only [List.length_cons] at h
      omega
    rw [words, List.flatMap_cons, wordBytes_pair, ih hrest]
    rfl

/-! ### Encoding and decoding -/

/-- The words of at most 65536 bytes are loadable. -/
theorem loadable_words {bytes : List UInt8} (h : bytes.length ≤ 65536) :
    Loadable (words bytes) where
  length_le := by
    rw [length_words]
    omega
  word_range := word_range_words bytes

/-- **Loadable words are encoded**, and nothing else is. -/
theorem encode_eq_ok_iff {ws : List Int} {bytes : List UInt8} :
    encode ws = .ok bytes ↔ Loadable ws ∧ bytes = ws.flatMap wordBytes := by
  unfold encode
  cases hcheck : check ws with
  | error e =>
    simp only [reduceCtorEq, false_iff]
    rintro ⟨h, -⟩
    rw [h.check] at hcheck
    cases hcheck
  | ok checked =>
    obtain ⟨rfl, hlength, hle⟩ := check_eq_ok_iff.mp hcheck
    dsimp only
    cases hnegative : checked.find? (· < 0) with
    | some word =>
      simp only [reduceCtorEq, false_iff]
      rintro ⟨h, -⟩
      have hword := h.word_range word (List.mem_of_find?_eq_some hnegative)
      have hlt := List.find?_some hnegative
      simp only [decide_eq_true_eq] at hlt
      omega
    | none =>
      have hrange : ∀ word ∈ checked, 0 ≤ word ∧ word ≤ 65535 := fun word hword => by
        have hnot := List.find?_eq_none.mp hnegative word hword
        simp only [decide_eq_true_eq, Int.not_lt] at hnot
        exact ⟨hnot, hle word hword⟩
      simp only [Except.ok.injEq]
      exact ⟨fun h => ⟨⟨hlength, hrange⟩, h.symm⟩, fun h => h.2.symm⟩

theorem decode_of_even {bytes : List UInt8} (h : bytes.length % 2 = 0) :
    decode bytes = check (words bytes) := by
  rw [decode, if_pos h, toList_pairUp]
  rfl

/-- **What is decoded**: an even number of bytes, as many as fit into the memory. -/
theorem decode_eq_ok_iff {bytes : List UInt8} {ws : List Int} : decode bytes = .ok ws ↔
    bytes.length % 2 = 0 ∧ bytes.length ≤ 65536 ∧ ws = words bytes := by
  by_cases heven : bytes.length % 2 = 0
  · rw [decode_of_even heven, check_eq_ok_iff, length_words]
    constructor
    · rintro ⟨rfl, hlength, -⟩
      exact ⟨heven, by omega, rfl⟩
    · rintro ⟨-, hlength, rfl⟩
      exact ⟨rfl, by omega, fun word hword => (word_range_words bytes word hword).2⟩
  · rw [decode, if_neg heven]
    simp [heven]

/-- **What is refused**: an odd number of bytes, and else more bytes than fit into the memory. -/
theorem decode_eq_error_iff {bytes : List UInt8} {e : ImageError} : decode bytes = .error e ↔
    (bytes.length % 2 = 1 ∧ e = .oddLength bytes.length) ∨
    (bytes.length % 2 = 0 ∧ 65536 < bytes.length ∧ e = .tooLong (bytes.length / 2)) := by
  by_cases heven : bytes.length % 2 = 0
  · rw [decode_of_even heven, check_eq_error_iff, length_words]
    constructor
    · rintro (⟨hlong, rfl⟩ | ⟨-, word, offset, -, hword, hlarge, -⟩)
      · exact .inr ⟨heven, by omega, rfl⟩
      · have hrange := word_range_words bytes word (List.mem_of_getElem? hword)
        omega
    · rintro (⟨hodd, -⟩ | ⟨-, hlong, rfl⟩)
      · omega
      · exact .inl ⟨by omega, rfl⟩
  · rw [decode, if_neg heven, Except.error.injEq]
    constructor
    · rintro rfl
      exact .inl ⟨by omega, rfl⟩
    · rintro (⟨-, rfl⟩ | ⟨heven', -⟩)
      · rfl
      · exact absurd heven' heven

end Binary

namespace Textual

/-! ### Numerals with commas between them -/

/-- The numerals of words, with single commas between them. -/
def numerals (ws : List Int) : List Char := (",".intercalate (ws.map toString)).toList

theorem numerals_nil : numerals [] = [] := by
  rw [numerals, String.toList_intercalate]
  rfl

/-- The numeral of a natural number has its digits. -/
theorem toList_toString (n : Nat) : (toString (n : Int)).toList = Nat.toDigits 10 n :=
  Nat.toList_repr

theorem numerals_singleton (n : Nat) : numerals [(n : Int)] = Nat.toDigits 10 n := by
  rw [numerals, String.toList_intercalate, List.map_singleton, List.map_singleton,
    List.intercalate_singleton, toList_toString]

theorem numerals_cons_cons (n : Nat) (word : Int) (rest : List Int) :
    numerals (n :: word :: rest) = Nat.toDigits 10 n ++ ',' :: numerals (word :: rest) := by
  simp only [numerals, String.toList_intercalate, List.map_cons, List.intercalate_cons_cons,
    toList_toString]
  exact List.append_assoc _ _ _

theorem isNumeral_toDigits (n : Nat) : IsNumeral (Nat.toDigits 10 n) where
  ne_nil := Nat.toDigits_ne_nil
  digit c hc := by
    have hdigit := Nat.isDigit_of_mem_toDigits (by decide) (by decide) hc
    simpa [Char.isDigit, Decimal.isDigit, Char.le_def] using hdigit

/-- A sixteen-bit number has few digits. -/
theorem length_toDigits_le {n : Nat} (h : n ≤ 65535) : (Nat.toDigits 10 n).length ≤ 4300 := by
  have hfive : (Nat.toDigits 10 n).length ≤ 5 :=
    (Nat.length_toDigits_le_iff (by decide) (by decide)).mpr (by omega)
  omega

/-- The numeral of a sixteen-bit number is read, if no digit follows. -/
theorem readTokens_toDigits {n : Nat} {rest : List Char} (h : n ≤ 65535)
    (hrest : ∀ c tail, rest = c :: tail → Decimal.isDigit c = false)
    (done : Array Int) : readTokens .numeral done (Nat.toDigits 10 n ++ rest) =
      readTokens .comma (done.push (n : Int)) rest := by
  have hread := readTokens_numeral .nil (isNumeral_toDigits n) (length_toDigits_le h) hrest done
  rwa [List.nil_append, Decimal.value_digits] at hread

/-- Numerals with commas between them are read as the words that they have been written for. -/
theorem readTokens_numerals {ws : List Int} (h : ∀ word ∈ ws, 0 ≤ word ∧ word ≤ 65535)
    (done : Array Int) :
    ∃ all, readTokens .numeral done (numerals ws) = .ok all ∧ all.toList = done.toList ++ ws := by
  induction ws generalizing done with
  | nil =>
    rw [numerals_nil]
    exact ⟨done, readTokens_ending rfl _ _, (List.append_nil _).symm⟩
  | cons word rest ih =>
    obtain ⟨hword, hrest⟩ := List.forall_mem_cons.mp h
    obtain ⟨n, rfl⟩ := Int.eq_ofNat_of_zero_le hword.1
    have hle : n ≤ 65535 := by omega
    cases rest with
    | nil =>
      have hread := readTokens_toDigits hle (isDigit_of_ending (.inl .nil)) done
      rw [List.append_nil] at hread
      rw [numerals_singleton, hread, readTokens_ending rfl]
      exact ⟨_, rfl, Array.toList_push⟩
    | cons next rest =>
      have hcomma : ∀ c tail, ',' :: numerals (next :: rest) = c :: tail →
          Decimal.isDigit c = false := isDigit_of_comma .nil
      rw [numerals_cons_cons, readTokens_toDigits hle hcomma]
      have hbehind := readTokens_comma .nil (numerals (next :: rest)) (done.push (n : Int))
      rw [List.nil_append] at hbehind
      obtain ⟨all, hall, hwords⟩ := ih hrest (done.push (n : Int))
      refine ⟨all, hbehind.trans hall, ?_⟩
      rw [hwords, Array.toList_push, List.append_assoc]
      rfl

/-- **Numerals with commas between them** are a text image of the words. -/
theorem decode_numerals {ws : List Int} (h : Loadable ws) : decode (numerals ws) = .ok ws := by
  obtain ⟨all, hall, hwords⟩ := readTokens_numerals h.word_range #[]
  obtain rfl : all.toList = ws := hwords
  rw [decode_of_ok hall, h.check]
  rfl

end Textual

/-! ### The three forms of an image -/

/-- **Binary images are one to one with loadable words.**  All loadable words are encoded, each in
two bytes with the lower one first; the bytes are decoded to these words, and so are their numerals
with commas between them.  An even number of bytes up to 65536 is decoded, and the words are encoded
in these bytes again.  Decoding fails on all other bytes and only on them: when their number is odd,
whatever else may be wrong, and otherwise when it is too large. -/
theorem binary_images_bijective :
    (∀ ws, Loadable ws → ∃ bytes, Binary.encode ws = .ok bytes ∧ bytes.length = 2 * ws.length ∧
      (∀ (k : Nat) (word : Int), ws[k]? = some word → ∃ low high, bytes[2 * k]? = some low ∧
        bytes[2 * k + 1]? = some high ∧ word = (low.toNat + 256 * high.toNat : Nat)) ∧
      Binary.decode bytes = .ok ws ∧ Textual.decode (Textual.numerals ws) = .ok ws) ∧
    (∀ bytes : List UInt8, bytes.length % 2 = 0 → bytes.length ≤ 65536 →
      ∃ ws, Binary.decode bytes = .ok ws ∧ Binary.encode ws = .ok bytes) ∧
    ∀ (bytes : List UInt8) (e : ImageError), Binary.decode bytes = .error e ↔
      (bytes.length % 2 = 1 ∧ e = .oddLength bytes.length) ∨
      (bytes.length % 2 = 0 ∧ 65536 < bytes.length ∧ e = .tooLong (bytes.length / 2)) := by
  refine ⟨fun ws h => ?_, fun bytes heven hlength => ?_, fun bytes e => Binary.decode_eq_error_iff⟩
  · have hbytes := Binary.length_flatMap_wordBytes ws
    have hlength := h.length_le
    refine ⟨ws.flatMap Binary.wordBytes, Binary.encode_eq_ok_iff.mpr ⟨h, rfl⟩, hbytes,
      fun k word hword => ?_, ?_, Textual.decode_numerals h⟩
    · obtain ⟨low, high, hpair, hsum⟩ :=
        Binary.exists_wordBytes (h.word_range word (List.mem_of_getElem? hword))
      have hplace := Binary.getElem?_flatMap_wordBytes hword
      rw [hpair] at hplace
      exact ⟨low, high, hplace 0 (by decide), hplace 1 (by decide), hsum⟩
    · rw [Binary.decode_eq_ok_iff, hbytes, Binary.words_flatMap_wordBytes h.word_range]
      exact ⟨by omega, by omega, rfl⟩
  · refine ⟨Binary.words bytes, Binary.decode_eq_ok_iff.mpr ⟨heven, hlength, rfl⟩, ?_⟩
    rw [Binary.encode_eq_ok_iff, Binary.flatMap_wordBytes_words heven]
    exact ⟨Binary.loadable_words hlength, rfl⟩

/-- Five words with a zero and the greatest word among them, bytes in which the higher one counts,
and three bytes that are refused. -/
theorem binary_images_bijective_of_words :
    Loadable [21, 19, 65, 0, 65535] ∧
    (∃ bytes, Binary.encode [21, 19, 65, 0, 65535] = .ok bytes ∧ bytes.length = 10 ∧
      Binary.decode bytes = .ok [21, 19, 65, 0, 65535] ∧
      Textual.decode (Textual.numerals [21, 19, 65, 0, 65535]) = .ok [21, 19, 65, 0, 65535]) ∧
    (∃ ws, Binary.decode [9, 0, 0, 128, 1, 128] = .ok ws ∧
      Binary.encode ws = .ok [9, 0, 0, 128, 1, 128]) ∧
    Binary.decode [1, 0, 2] = .error (.oddLength 3) := by
  have hloadable : Loadable [21, 19, 65, 0, 65535] := by decide
  obtain ⟨hwords, hbytes, herror⟩ := binary_images_bijective
  obtain ⟨bytes, hencode, hlength, -, hdecode, htext⟩ := hwords _ hloadable
  exact ⟨hloadable, ⟨bytes, hencode, hlength, hdecode, htext⟩, hbytes _ rfl (by decide),
    (herror _ _).mpr (.inl ⟨rfl, rfl⟩)⟩

end Image

end WordMachine
