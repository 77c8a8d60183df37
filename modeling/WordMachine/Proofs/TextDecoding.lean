/-
  Text images are read by their grammar.

  Reading the tokens of a text finds words that the text spells (`comes_of_readTokens`), and it finds
  all that it spells (`readTokens_of_spells`).  It finds the same in a text whose tabs have been
  expanded (`readTokens_widens`).  So a text with numerals of a bearable length is decoded exactly
  when it spells an image, and otherwise is refused with the error that says what is wrong
  (`decode_exact`).
-/
import WordMachine.Proofs.Rules
import WordMachine.Proofs.TabStops
import WordMachine.Proofs.TextGrammar

namespace WordMachine

namespace Image

namespace Textual

/-! ### Tokens -/

theorem readTokens_ending {text : List Char} (h : skip false text = []) (expected : Expected)
    (done : Array Int) : readTokens expected done text = .ok done := by
  rw [readTokens]
  split
  · rfl
  · rename_i heq
    rw [h] at heq
    cases heq

/-- What is done with a text depends on its first character behind the layout. -/
theorem readTokens_token {text rest : List Char} {c : Char} (h : skip false text = c :: rest)
    (expected : Expected) (done : Array Int) : readTokens expected done text =
      match expected with
      | .numeral =>
        if Decimal.isDigit c then
          if 4300 < (c :: rest.takeWhile Decimal.isDigit).length then .error .longNumeral
          else readTokens .comma
            (done.push (Decimal.value (c :: rest.takeWhile Decimal.isDigit)))
            (rest.dropWhile Decimal.isDigit)
        else .error (.unexpected (c :: rest))
      | .comma =>
        if c = ',' then readTokens .numeral done rest else .error (.unexpected (c :: rest)) := by
  rw [readTokens]
  split
  · rename_i heq
    rw [h] at heq
    cases heq
  · rename_i c' rest' heq
    rw [h] at heq
    cases heq
    rfl

/-- A whole run of digits is read as a numeral, unless it is too long. -/
theorem readTokens_digits {gap digits rest : List Char} (hgap : IsLayout gap)
    (hdigits : IsNumeral digits) (hrest : ∀ c tail, rest = c :: tail → Decimal.isDigit c = false)
    (done : Array Int) : readTokens .numeral done (gap ++ (digits ++ rest)) =
      if 4300 < digits.length then .error .longNumeral
      else readTokens .comma (done.push (Decimal.value digits)) rest := by
  obtain ⟨htake, hdrop⟩ := takeWhile_digits hdigits.digit hrest
  obtain ⟨hne, hall⟩ := hdigits
  cases digits with
  | nil => exact absurd rfl hne
  | cons c digits =>
    have hc := hall c List.mem_cons_self
    obtain ⟨hhash, hblank⟩ := isDigit_token hc
    have hskip : skip false (gap ++ (c :: digits ++ rest)) = c :: (digits ++ rest) := by
      rw [skip_layout hgap]
      exact skip_token hhash hblank _
    rw [List.cons_append, List.takeWhile_cons, if_pos hc] at htake
    rw [List.cons_append, List.dropWhile_cons, if_pos hc] at hdrop
    rw [readTokens_token hskip]
    simp only [hc, if_true, htake, hdrop]

theorem readTokens_numeral {gap digits rest : List Char} (hgap : IsLayout gap)
    (hdigits : IsNumeral digits) (hlength : digits.length ≤ 4300)
    (hrest : ∀ c tail, rest = c :: tail → Decimal.isDigit c = false)
    (done : Array Int) : readTokens .numeral done (gap ++ (digits ++ rest)) =
      readTokens .comma (done.push (Decimal.value digits)) rest := by
  rw [readTokens_digits hgap hdigits hrest, if_neg (Nat.not_lt.mpr hlength)]

theorem readTokens_comma {gap : List Char} (hgap : IsLayout gap) (rest : List Char)
    (done : Array Int) :
    readTokens .comma done (gap ++ ',' :: rest) = readTokens .numeral done rest := by
  have hskip : skip false (gap ++ ',' :: rest) = ',' :: rest := by
    rw [skip_layout hgap]
    exact skip_token (by decide) (by decide) rest
  rw [readTokens_token hskip]
  rfl

/-- The numerals of a text are read. -/
theorem readTokens_of_numerals {text : List Char} {words : List Int} (h : Numerals text words)
    (hshort : ShortNumerals text) (done : Array Int) :
    ∃ all, readTokens .numeral done text = .ok all ∧ all.toList = done.toList ++ words := by
  -- behind each numeral of the grammar the run of digits ends, with the text or in front of a comma
  induction h generalizing done with
  | last hgap hdigits hend =>
    have hlength := hshort.length_le hgap hdigits
    rw [readTokens_numeral hgap hdigits hlength (isDigit_of_ending hend),
      readTokens_ending (skip_ending hend)]
    exact ⟨_, rfl, Array.toList_push⟩
  | trailing hgap hdigits hgap' hend =>
    have hlength := hshort.length_le hgap hdigits
    rw [readTokens_numeral hgap hdigits hlength (isDigit_of_comma hgap'), readTokens_comma hgap',
      readTokens_ending (skip_ending hend)]
    exact ⟨_, rfl, Array.toList_push⟩
  | next hgap hdigits hgap' hrest ih =>
    have hlength := hshort.length_le hgap hdigits
    rw [readTokens_numeral hgap hdigits hlength (isDigit_of_comma hgap'), readTokens_comma hgap']
    obtain ⟨all, hall, hwords⟩ := ih ((hshort.rest hgap hdigits).behind_comma hgap') _
    refine ⟨all, hall, ?_⟩
    rw [hwords, Array.toList_push, List.append_assoc]
    rfl

/-- **Completeness**: a text that spells words is read, and they are what is found in it. -/
theorem readTokens_of_spells {text : List Char} {words : List Int} (h : Spells text words)
    (hshort : ShortNumerals text) :
    ∃ all, readTokens .numeral #[] text = .ok all ∧ all.toList = words := by
  rcases h with ⟨hending, rfl⟩ | hnumerals
  · exact ⟨#[], readTokens_ending (skip_ending hending) _ _, rfl⟩
  · exact readTokens_of_numerals hnumerals hshort #[]

/-- `Comes expected text words` says that a text goes on with the words when a token of this kind is
expected. -/
def Comes : Expected → List Char → List Int → Prop
  | .numeral, text, words => Spells text words
  | .comma, text, words => (IsEnding text ∧ words = []) ∨
      ∃ gap rest, IsLayout gap ∧ text = gap ++ ',' :: rest ∧ Spells rest words

/-- A numeral in front of what may come behind one. -/
theorem Comes.numeral {gap digits rest : List Char} {words : List Int} (hgap : IsLayout gap)
    (hdigits : IsNumeral digits) (h : Comes .comma rest words) :
    Comes .numeral (gap ++ (digits ++ rest)) (Decimal.value digits :: words) := by
  rcases h with ⟨hending, rfl⟩ | ⟨gap', tail, hgap', rfl, ⟨hending, rfl⟩ | htail⟩
  · exact .inr (.last hgap hdigits hending)
  · exact .inr (.trailing hgap hdigits hgap' hending)
  · exact .inr (.next hgap hdigits hgap' htail)

/-- A digit starts a numeral, of which all digits are taken. -/
theorem exists_numeral_of_skip {text rest : List Char} {c : Char}
    (h : skip false text = c :: rest) (hc : Decimal.isDigit c = true) :
    ∃ gap, IsLayout gap ∧ IsNumeral (c :: rest.takeWhile Decimal.isDigit) ∧
      text = gap ++ ((c :: rest.takeWhile Decimal.isDigit) ++ rest.dropWhile Decimal.isDigit) := by
  obtain ⟨gap, hgap, htext⟩ := exists_layout_of_skip h
  have htaken : ∀ d ∈ rest.takeWhile Decimal.isDigit, Decimal.isDigit d = true :=
    List.all_eq_true.mp List.all_takeWhile
  refine ⟨gap, hgap, ⟨List.cons_ne_nil _ _, List.forall_mem_cons.mpr ⟨hc, htaken⟩⟩, ?_⟩
  rw [List.cons_append, List.takeWhile_append_dropWhile]
  exact htext

/-- **Soundness**: what has been read is spelled by the text. -/
theorem comes_of_readTokens {expected : Expected} {done all : Array Int} {text : List Char}
    (h : readTokens expected done text = .ok all) :
    ∃ words, Comes expected text words ∧ all.toList = done.toList ++ words := by
  -- nothing is left, or a numeral is too long, is read or is missing, or a comma is read or is
  -- missing; the cases that fail are excluded
  fun_induction readTokens expected done text with
  | case1 expected done text hskip =>
    cases h
    have hending := isEnding_of_skip hskip
    refine ⟨[], ?_, (List.append_nil _).symm⟩
    cases expected <;> exact .inl ⟨hending, rfl⟩
  | case2 => cases h
  | case3 done text c rest hskip hlt hc digits hshort ih =>
    obtain ⟨words, hwords, hall⟩ := ih h
    obtain ⟨gap, hgap, hdigits, htext⟩ := exists_numeral_of_skip hskip hc
    refine ⟨Decimal.value digits :: words, ?_, ?_⟩
    · rw [htext]
      exact hwords.numeral hgap hdigits
    · rw [hall, Array.toList_push, List.append_assoc]
      rfl
  | case4 => cases h
  | case5 done text rest hskip hlt ih =>
    obtain ⟨words, hwords, hall⟩ := ih h
    obtain ⟨gap, hgap, htext⟩ := exists_layout_of_skip hskip
    exact ⟨words, .inr ⟨gap, rest, hgap, htext, hwords⟩, hall⟩
  | case6 => cases h

/-- A numeral is refused for its length only when the text has a long one. -/
theorem not_shortNumerals_of_readTokens {expected : Expected} {done : Array Int} {text : List Char}
    (h : readTokens expected done text = .error .longNumeral) : ¬ ShortNumerals text := by
  intro hshort
  fun_induction readTokens expected done text with
  | case1 => cases h
  | case2 done text c rest hskip hlt hc digits hlong =>
    obtain ⟨gap, hgap, hdigits, rfl⟩ := exists_numeral_of_skip hskip hc
    exact Nat.not_le.mpr hlong (hshort.length_le hgap hdigits)
  | case3 done text c rest hskip hlt hc digits hbound ih =>
    obtain ⟨gap, hgap, hdigits, rfl⟩ := exists_numeral_of_skip hskip hc
    exact ih h (hshort.rest hgap hdigits)
  | case4 => cases h
  | case5 done text rest hskip hlt ih =>
    obtain ⟨gap, hgap, rfl⟩ := exists_layout_of_skip hskip
    exact ih h (hshort.behind_comma hgap)
  | case6 => cases h

/-- **A text with short numerals is read** as the words that it spells, or is refused at a token
because it spells none. -/
theorem readTokens_cases {text : List Char} (hshort : ShortNumerals text) :
    (∃ all, readTokens .numeral #[] text = .ok all ∧ Spells text all.toList) ∨
    ∃ rest, readTokens .numeral #[] text = .error (.unexpected rest) ∧
      ¬ ∃ words, Spells text words := by
  cases h : readTokens .numeral #[] text with
  | ok all =>
    obtain ⟨words, hwords, hall⟩ := comes_of_readTokens h
    obtain rfl : all.toList = words := hall
    exact .inl ⟨all, rfl, hwords⟩
  | error failure =>
    cases failure with
    | longNumeral => exact absurd hshort (not_shortNumerals_of_readTokens h)
    | unexpected rest =>
      refine .inr ⟨rest, rfl, ?_⟩
      rintro ⟨words, hwords⟩
      obtain ⟨all, hall, -⟩ := readTokens_of_spells hwords hshort
      rw [h] at hall
      cases hall

/-- A text with short numerals spells at most one list of words. -/
theorem Spells.unique {text : List Char} {words words' : List Int} (hshort : ShortNumerals text)
    (h : Spells text words) (h' : Spells text words') : words = words' := by
  obtain ⟨all, hall, rfl⟩ := readTokens_of_spells h hshort
  obtain ⟨all', hall', rfl⟩ := readTokens_of_spells h' hshort
  rw [hall] at hall'
  cases hall'
  rfl

/-! ### Tabs -/

section Widens

open Text

variable {text wide : List Char}

/-- One blank is as good as several, and as a tab. -/
theorem skip_replicate (inComment : Bool) (n : Nat) (text : List Char) :
    skip inComment (List.replicate n ' ' ++ text) = skip inComment text := by
  induction n with
  | zero => rfl
  | succ n ih =>
    rw [List.replicate_succ, List.cons_append]
    cases inComment with
    | false => rw [skip_blank rfl, ih]
    | true => rw [skip, if_pos rfl, ← ih]; rfl

theorem skip_tab (inComment : Bool) (text : List Char) :
    skip inComment ('\t' :: text) = skip inComment text := by
  cases inComment with
  | false => exact skip_blank rfl text
  | true => rw [skip, if_pos rfl]; rfl

/-- The same token comes first in a text and in a wider one, or none in both. -/
theorem skip_widens (h : Widens text wide) (inComment : Bool) :
    (skip inComment text = [] ∧ skip inComment wide = []) ∨
    ∃ c rest rest', skip inComment text = c :: rest ∧ skip inComment wide = c :: rest' ∧
      Widens rest rest' := by
  induction h generalizing inComment with
  | nil => exact .inl ⟨rfl, rfl⟩
  | tab n h ih =>
    rw [skip_tab, skip_replicate]
    exact ih inComment
  | @char c rest wide hc h ih =>
    rw [skip, skip]
    split
    · exact ih _
    · split
      · exact ih true
      · split
        · exact ih false
        · exact .inr ⟨c, rest, wide, rfl, rfl, h⟩

/-- The same digits come first in a text and in a wider one. -/
theorem takeWhile_widens (h : Widens text wide) :
    wide.takeWhile Decimal.isDigit = text.takeWhile Decimal.isDigit ∧
      Widens (text.dropWhile Decimal.isDigit) (wide.dropWhile Decimal.isDigit) := by
  induction h with
  | nil => exact ⟨rfl, .nil⟩
  | tab n h ih => exact ⟨rfl, .tab n h⟩
  | @char c rest wide hc h ih =>
    rw [List.takeWhile_cons, List.takeWhile_cons, List.dropWhile_cons, List.dropWhile_cons]
    split
    · exact ⟨by rw [ih.1], ih.2⟩
    · exact ⟨rfl, .char hc h⟩

/-- Two texts are read with the same outcome when the same words are read, or both are refused at a
token, or both for a long numeral. -/
inductive SameOutcome : Except Failure (Array Int) → Except Failure (Array Int) → Prop
  | ok (all : Array Int) : SameOutcome (.ok all) (.ok all)
  | unexpected (rest rest' : List Char) :
    SameOutcome (.error (.unexpected rest)) (.error (.unexpected rest'))
  | longNumeral : SameOutcome (.error .longNumeral) (.error .longNumeral)

/-- **A text is read like a wider one.** -/
theorem readTokens_widens (h : Widens text wide) (expected : Expected) (done : Array Int) :
    SameOutcome (readTokens expected done text) (readTokens expected done wide) := by
  -- the wider text has the same token behind its layout, and what follows is wider again
  have htoken : ∀ {text wide rest : List Char} {c : Char}, Widens text wide →
      skip false text = c :: rest → ∃ rest', skip false wide = c :: rest' ∧ Widens rest rest' := by
    intro text wide rest c h hskip
    rcases skip_widens h false with ⟨hnone, -⟩ | ⟨c', tail, rest', hsome, hwide, hrest⟩
    · rw [hskip] at hnone
      cases hnone
    · rw [hskip] at hsome
      cases hsome
      exact ⟨rest', hwide, hrest⟩
  fun_induction readTokens expected done text generalizing wide with
  | case1 expected done text hskip =>
    rcases skip_widens h false with ⟨-, hwide⟩ | ⟨c, rest, rest', hsome, -, -⟩
    · rw [readTokens_ending hwide]
      exact .ok done
    · rw [hskip] at hsome
      cases hsome
  | case2 done text c rest hskip hlt hc digits =>
    rename_i hlong
    have hlong : 4300 < (c :: rest.takeWhile Decimal.isDigit).length := hlong
    obtain ⟨rest', hwide, hrest⟩ := htoken h hskip
    obtain ⟨htake, -⟩ := takeWhile_widens hrest
    rw [readTokens_token hwide]
    simp only [hc, if_true, htake, if_pos hlong]
    exact .longNumeral
  | case3 done text c rest hskip hlt hc digits =>
    rename_i hbound ih
    have hbound : ¬ 4300 < (c :: rest.takeWhile Decimal.isDigit).length := hbound
    obtain ⟨rest', hwide, hrest⟩ := htoken h hskip
    obtain ⟨htake, hdrop⟩ := takeWhile_widens hrest
    rw [readTokens_token hwide]
    simp only [hc, if_true, htake, if_neg hbound]
    exact ih hdrop
  | case4 done text c rest hskip hlt hc =>
    obtain ⟨rest', hwide, -⟩ := htoken h hskip
    rw [readTokens_token hwide]
    simp only [hc, Bool.false_eq_true, if_false]
    exact .unexpected _ _
  | case5 done text rest hskip hlt ih =>
    obtain ⟨rest', hwide, hrest⟩ := htoken h hskip
    rw [readTokens_token hwide]
    exact ih hrest
  | case6 done text c rest hskip hlt hc =>
    obtain ⟨rest', hwide, -⟩ := htoken h hskip
    rw [readTokens_token hwide]
    simp only [if_neg hc]
    exact .unexpected _ _

theorem SameOutcome.eq_ok_iff {result result' : Except Failure (Array Int)}
    (h : SameOutcome result result') (all : Array Int) :
    result' = .ok all ↔ result = .ok all := by
  cases h with
  | ok => rfl
  | unexpected | longNumeral => simp

end Widens

/-! ### Decoding -/

theorem decode_expandTabs (text : List Char) : decode (Text.expandTabs text) = decode text := by
  unfold decode
  rw [Text.expandTabs_expandTabs]

/-- The words of a text are checked. -/
theorem decode_of_ok {text : List Char} {all : Array Int}
    (h : readTokens .numeral #[] text = .ok all) :
    decode text = (check all.toList).mapError .image := by
  have hsame := readTokens_widens (Text.widens_expandTabs text) .numeral #[]
  unfold decode
  dsimp only
  rw [(hsame.eq_ok_iff all).mpr h]

/-- A text that is refused at a token is malformed, at some place. -/
theorem decode_of_unexpected {text rest : List Char}
    (h : readTokens .numeral #[] text = .error (.unexpected rest)) :
    ∃ position, decode text = .error (.image (.malformed position)) := by
  have hsame := readTokens_widens (Text.widens_expandTabs text) .numeral #[]
  rw [h] at hsame
  unfold decode
  dsimp only
  generalize readTokens .numeral #[] (Text.expandTabs text) = result at hsame ⊢
  cases hsame with
  | unexpected => exact ⟨_, rfl⟩

section Decode

variable {text : List Char}

/-- **What decoding does**: the words of a text that spells some are checked, and any other text is
malformed. -/
theorem decode_cases (hshort : ShortNumerals text) :
    (∃ words, Spells text words ∧ decode text = (check words).mapError .image) ∨
    ((¬ ∃ words, Spells text words) ∧
      ∃ position, decode text = .error (.image (.malformed position))) := by
  rcases readTokens_cases hshort with ⟨all, hread, hspells⟩ | ⟨rest, hread, hnone⟩
  · exact .inl ⟨all.toList, hspells, decode_of_ok hread⟩
  · exact .inr ⟨hnone, decode_of_unexpected hread⟩

theorem decode_of_spells {words : List Int} (hshort : ShortNumerals text)
    (h : Spells text words) : decode text = (check words).mapError .image := by
  rcases decode_cases hshort with ⟨words', h', hdecode⟩ | ⟨hnone, -⟩
  · rw [h.unique hshort h']
    exact hdecode
  · exact absurd ⟨words, h⟩ hnone

theorem decode_eq_ok_iff {words : List Int} (hshort : ShortNumerals text) :
    decode text = .ok words ↔ Spells text words ∧ check words = .ok words := by
  constructor
  · intro h
    rcases decode_cases hshort with ⟨words', h', hdecode⟩ | ⟨-, position, hdecode⟩
    · rw [hdecode, Check.mapError_eq_ok_iff] at h
      obtain ⟨rfl, -⟩ := check_eq_ok_iff.mp h
      exact ⟨h', h⟩
    · rw [hdecode] at h
      cases h
  · rintro ⟨hspells, hcheck⟩
    rw [decode_of_spells hshort hspells, hcheck]
    rfl

/-- A check does not find a text malformed. -/
theorem check_ne_malformed (words : List Int) (position : Text.Position) :
    check words ≠ .error (.malformed position) := by
  rw [Ne, check_eq_error_iff]
  rintro (⟨-, h⟩ | ⟨-, word, offset, h, -⟩)
  all_goals cases h

theorem decode_eq_malformed_iff (hshort : ShortNumerals text) :
    (∃ position, decode text = .error (.image (.malformed position))) ↔
      ¬ ∃ words, Spells text words := by
  constructor
  · rintro ⟨position, h⟩ ⟨words, hwords⟩
    rw [decode_of_spells hshort hwords, Check.mapError_eq_error_iff] at h
    obtain ⟨e, he, h⟩ := h
    cases h
    exact check_ne_malformed words position he
  · intro hnone
    rcases decode_cases hshort with ⟨words, hwords, -⟩ | ⟨-, hmalformed⟩
    · exact absurd ⟨words, hwords⟩ hnone
    · exact hmalformed

/-- All other errors are those of the check. -/
theorem decode_eq_error_iff {e : ImageError} (hshort : ShortNumerals text)
    (he : ∀ position, e ≠ .malformed position) :
    decode text = .error (.image e) ↔ ∃ words, Spells text words ∧ check words = .error e := by
  constructor
  · intro h
    rcases decode_cases hshort with ⟨words, hwords, hdecode⟩ | ⟨-, position, hdecode⟩
    · rw [hdecode, Check.mapError_eq_error_iff] at h
      obtain ⟨e', hcheck, h⟩ := h
      cases h
      exact ⟨words, hwords, hcheck⟩
    · rw [hdecode] at h
      cases h
      exact absurd rfl (he position)
  · rintro ⟨words, hwords, hcheck⟩
    rw [decode_of_spells hshort hwords, hcheck]
    rfl

/-- **Text images are decoded exactly.**  Where no run of digits outside of comments is longer than
4300 digits, a text is decoded if and only if it spells words of which there are at most 32768, none
of them above 65535, and then these are the words.  Every other text is refused with an image error:
as malformed if it spells no words, or else for their number if there are too many, or else for the
first word that is too large.  Whether tabs have been expanded before makes no difference. -/
theorem decode_exact (hshort : ShortNumerals text) :
    (∀ words, decode text = .ok words ↔
      Spells text words ∧ words.length ≤ 32768 ∧ ∀ word ∈ words, word ≤ 65535) ∧
    ((∃ position, decode text = .error (.image (.malformed position))) ↔
      ¬ ∃ words, Spells text words) ∧
    (∀ size, decode text = .error (.image (.tooLong size)) ↔
      ∃ words, Spells text words ∧ words.length = size ∧ 32768 < size) ∧
    (∀ word offset, decode text = .error (.image (.wordOutOfRange word offset)) ↔
      ∃ words, Spells text words ∧ words.length ≤ 32768 ∧ words[offset]? = some word ∧
        65535 < word ∧ ∀ k < offset, ∀ x, words[k]? = some x → x ≤ 65535) ∧
    (∀ e, decode text = .error e → ∃ error, e = .image error) ∧
    decode (Text.expandTabs text) = decode text ∧
    ∀ all, readTokens .numeral #[] (Text.expandTabs text) = .ok all ↔
      readTokens .numeral #[] text = .ok all := by
  have hsame := readTokens_widens (Text.widens_expandTabs text) .numeral #[]
  refine ⟨fun words => ?_, decode_eq_malformed_iff hshort, fun size => ?_, fun word offset => ?_,
    fun e h => ?_, decode_expandTabs text, hsame.eq_ok_iff⟩
  · rw [decode_eq_ok_iff hshort, check_eq_ok_iff]
    simp only [true_and]
  · rw [decode_eq_error_iff hshort (fun _ => by simp)]
    constructor
    · rintro ⟨words, hwords, hcheck⟩
      rcases check_eq_error_iff.mp hcheck with ⟨hlong, h⟩ | ⟨-, word, offset, h, -⟩
      · cases h
        exact ⟨words, hwords, rfl, hlong⟩
      · cases h
    · rintro ⟨words, hwords, rfl, hlong⟩
      exact ⟨words, hwords, check_eq_error_iff.mpr (.inl ⟨hlong, rfl⟩)⟩
  · rw [decode_eq_error_iff hshort (fun _ => by simp)]
    constructor
    · rintro ⟨words, hwords, hcheck⟩
      rcases check_eq_error_iff.mp hcheck with ⟨-, h⟩ | ⟨hlength, word', offset', h, hfirst⟩
      · cases h
      · cases h
        exact ⟨words, hwords, hlength, hfirst⟩
    · rintro ⟨words, hwords, hlength, hfirst⟩
      exact ⟨words, hwords, check_eq_error_iff.mpr (.inr ⟨hlength, word, offset, rfl, hfirst⟩)⟩
  · rcases decode_cases hshort with ⟨words, -, hdecode⟩ | ⟨-, position, hdecode⟩
    · rw [hdecode, Check.mapError_eq_error_iff] at h
      obtain ⟨error, -, rfl⟩ := h
      exact ⟨error, rfl⟩
    · rw [hdecode] at h
      cases h
      exact ⟨_, rfl⟩

end Decode

/-- Layout of all kinds: digits and a comma in a comment, a tab, leading zeros, a comment and a
carriage return between tokens, a comma behind the last numeral, and a comment without a line
feed. -/
theorem decode_exact_of_layout : ∃ text : List Char,
    text = ['#', ' ', '7', ',', '\n', '\t', '0', '0', '7', ' ', ',', '#', '\r', '\n', '9', ',',
      '#'] ∧
      ShortNumerals text ∧ Spells text [7, 9] ∧ decode text = .ok [7, 9] := by
  have hcomment : IsLayout ['#', ' ', '7', ',', '\n', '\t'] := by
    have hbody : '\n' ∉ [' ', '7', ','] := by decide
    exact .comment hbody (.blank rfl .nil)
  have hcomment' : IsLayout ['#', '\r', '\n'] := by
    have hbody : '\n' ∉ ['\r'] := by decide
    exact .comment hbody .nil
  have hending : IsEnding ['#'] := .inr ⟨[], [], .nil, List.not_mem_nil, rfl⟩
  have hseven : IsNumeral ['0', '0', '7'] := ⟨List.cons_ne_nil _ _, List.all_eq_true.mp rfl⟩
  have hnine : IsNumeral ['9'] := ⟨List.cons_ne_nil _ _, List.all_eq_true.mp rfl⟩
  have hlast : Numerals ['#', '\r', '\n', '9', ',', '#'] [9] :=
    .trailing hcomment' hnine .nil hending
  have hspells : Numerals ['#', ' ', '7', ',', '\n', '\t', '0', '0', '7', ' ', ',', '#', '\r', '\n',
      '9', ',', '#'] [7, 9] := .next hcomment hseven (.blank rfl .nil) hlast
  refine ⟨_, rfl, ?_⟩
  generalize htext : ['#', ' ', '7', ',', '\n', '\t', '0', '0', '7', ' ', ',', '#', '\r', '\n', '9',
    ',', '#'] = text at hspells ⊢
  have hshort : ShortNumerals text := by
    apply shortNumerals_of_length_le
    rw [← htext]
    decide
  refine ⟨hshort, .inr hspells, ?_⟩
  exact ((decode_exact hshort).1 [7, 9]).mpr ⟨.inr hspells, by decide, by decide⟩

end Textual

end Image

end WordMachine
