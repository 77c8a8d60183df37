/-
  The text of a listing.

  A line is made of parts with single blanks between them, and none of the parts has a blank in it
  (`Entry.blank_not_mem`), so the parts can be told from the line, and what the line shows from the
  parts (`Entry.content_eq_of_text_eq`).  The words that the lines show are the words of the list,
  each once and in order (`Sweeps.flatMap_words`).  So the lines of a listing are enough to get the
  words back (`lines_determine_words`).
-/
import Mathlib
import WordMachine.Proofs.Listings

namespace WordMachine

/-! ### Numerals -/

namespace Decimal

theorem not_mem_repr {c : Char} (hc : c.isDigit = false) (n : Nat) : c ∉ n.repr.toList := by
  intro hmem
  rw [Nat.toList_repr] at hmem
  have hdigit := Nat.isDigit_of_mem_toDigits (by decide) (by decide) hmem
  rw [hc] at hdigit
  cases hdigit

/-- There are digits and signs in a numeral. -/
theorem not_mem_toString {c : Char} (hc : c.isDigit = false) (hsign : c ≠ '-') (n : Int) :
    c ∉ (toString n).toList := by
  rw [Int.toString_eq_repr, Int.repr_eq_if]
  split
  · exact not_mem_repr hc _
  · rw [String.toList_append, List.mem_append, not_or]
    exact ⟨by simpa using hsign, not_mem_repr hc _⟩

theorem blank_not_mem_padZeros (width : Nat) (n : Int) : ' ' ∉ (padZeros width n).toList := by
  have hdigits : ' ' ∉ (toString n.natAbs).toList := not_mem_repr rfl _
  unfold padZeros
  simp only [String.toList_append, List.mem_append, String.toList_ofList, not_or]
  refine ⟨⟨?_, ?_⟩, hdigits⟩
  · split <;> decide
  · intro hmem
    cases List.eq_of_mem_replicate hmem

end Decimal

/-- Parts without blanks can be told from the line that they make up. -/
theorem eq_of_intercalate_blank {parts parts' : List String} (hne : parts ≠ []) (hne' : parts' ≠ [])
    (h : ∀ part ∈ parts, ' ' ∉ part.toList) (h' : ∀ part ∈ parts', ' ' ∉ part.toList)
    (heq : " ".intercalate parts = " ".intercalate parts') : parts = parts' := by
  have hlists : [' '].intercalate (parts.map String.toList) =
      [' '].intercalate (parts'.map String.toList) := by
    have := congrArg String.toList heq
    rwa [String.toList_intercalate, String.toList_intercalate] at this
  have hsplit := congrArg (List.splitOn ' ') hlists
  rw [List.splitOn_intercalate _ (by simpa using h) (by simpa using hne),
    List.splitOn_intercalate _ (by simpa using h') (by simpa using hne')] at hsplit
  exact (List.map_inj_right fun _ _ => String.toList_inj.mp).mp hsplit

/-! ### Parts of lines -/

theorem Opcode.find?_mnemonic (op : Opcode) :
    all.find? (fun other => other.mnemonic = op.mnemonic) = some op := by
  cases op <;> decide

theorem Opcode.mnemonic_injective {op op' : Opcode} (h : op.mnemonic = op'.mnemonic) :
    op = op' := by
  have hfind := op.find?_mnemonic
  rw [h, op'.find?_mnemonic] at hfind
  exact (Option.some.inj hfind).symm

namespace Operand

theorem toList_text_register (index : Fin 8) :
    (register index).text.toList = 'r' :: index.val.repr.toList := by
  show ("r" ++ index.val.repr).toList = _
  rw [String.toList_append]
  rfl

theorem toList_text_invalid (raw : Int) :
    (invalid raw).text.toList = '?' :: raw.repr.toList := by
  show ("?" ++ raw.repr).toList = _
  rw [String.toList_append]
  rfl

/-- A literal is shown by its digits, and the other operands start with a character that is none. -/
theorem text_injective {operand operand' : Operand} (h : operand.text = operand'.text) :
    operand = operand' := by
  have hlists := congrArg String.toList h
  have hliteral : ∀ (value : Fin 32768) {c : Char} {rest : List Char}, c.isDigit = false →
      (literal value).text.toList ≠ c :: rest := by
    intro value c rest hc heq
    have hmem : c ∉ value.val.repr.toList := Decimal.not_mem_repr hc _
    have heq : value.val.repr.toList = c :: rest := heq
    rw [heq] at hmem
    exact hmem List.mem_cons_self
  cases operand with
  | literal value =>
    cases operand' with
    | literal value' => rw [Fin.ext (Nat.repr_inj.mp h)]
    | register index =>
      rw [toList_text_register] at hlists
      exact absurd hlists (hliteral value rfl)
    | invalid raw =>
      rw [toList_text_invalid] at hlists
      exact absurd hlists (hliteral value rfl)
  | register index =>
    rw [toList_text_register] at hlists
    cases operand' with
    | literal value => exact absurd hlists.symm (hliteral value rfl)
    | register index' =>
      rw [toList_text_register, List.cons.injEq, String.toList_inj, Nat.repr_inj] at hlists
      rw [Fin.ext hlists.2]
    | invalid raw =>
      rw [toList_text_invalid] at hlists
      cases hlists
  | invalid raw =>
    rw [toList_text_invalid] at hlists
    cases operand' with
    | literal value => exact absurd hlists.symm (hliteral value rfl)
    | register index =>
      rw [toList_text_register] at hlists
      cases hlists
    | invalid raw' =>
      rw [toList_text_invalid, List.cons.injEq, String.toList_inj, Int.repr_inj] at hlists
      rw [hlists.2]

example : [5, 32773, 40000, -5].map (fun raw => (ofRaw raw).text) =
    ["5", "r5", "?40000", "?-5"] := by
  decide

theorem blank_not_mem_text (operand : Operand) : ' ' ∉ operand.text.toList := by
  cases operand with
  | literal value => exact Decimal.not_mem_repr rfl value.val
  | register index =>
    rw [toList_text_register, List.mem_cons, not_or]
    exact ⟨by decide, Decimal.not_mem_repr rfl _⟩
  | invalid raw =>
    rw [toList_text_invalid, List.mem_cons, not_or]
    exact ⟨by decide, Decimal.not_mem_toString rfl (by decide) raw⟩

end Operand

namespace Listing

/-- The parts of a line behind its address. -/
def Content.parts : Content → List String
  | data word => [".word", toString word]
  | code op operands => op.mnemonic :: operands.map Operand.text

/-- The parts of a line. -/
def Entry.parts (e : Entry) : List String :=
  (Decimal.padZeros 5 e.address ++ ":") :: e.content.parts

/-- A line is made of its parts. -/
theorem Entry.text_eq (e : Entry) : e.text = " ".intercalate e.parts := by
  obtain ⟨address, content⟩ := e
  cases content with
  | code op operands => rfl
  | data word =>
    show Decimal.padZeros 5 address ++ ": .word " ++ toString word = _
    apply String.toList_inj.mp
    simp [Entry.parts, Content.parts]

theorem Entry.blank_not_mem (e : Entry) : ∀ part ∈ e.parts, ' ' ∉ part.toList := by
  have haddress : ' ' ∉ (Decimal.padZeros 5 e.address ++ ":").toList := by
    rw [String.toList_append, List.mem_append, not_or]
    exact ⟨Decimal.blank_not_mem_padZeros 5 _, by decide⟩
  refine List.forall_mem_cons.mpr ⟨haddress, ?_⟩
  generalize e.content = content
  cases content with
  | data word =>
    simp only [Content.parts, List.forall_mem_cons]
    exact ⟨by decide, Decimal.not_mem_toString rfl (by decide) word, fun _ h => by cases h⟩
  | code op operands =>
    refine List.forall_mem_cons.mpr ⟨by cases op <;> decide, fun part hpart => ?_⟩
    obtain ⟨operand, -, rfl⟩ := List.mem_map.mp hpart
    exact operand.blank_not_mem_text

theorem Content.parts_injective {content content' : Content} (h : content.parts = content'.parts) :
    content = content' := by
  have hword : ∀ op : Opcode, op.mnemonic ≠ ".word" := by
    intro op
    cases op <;> decide
  cases content with
  | data word =>
    cases content' with
    | data word' =>
      simp only [parts, List.cons.injEq, Int.toString_eq_repr, Int.repr_inj] at h
      rw [h.2.1]
    | code op operands =>
      rw [parts, parts, List.cons.injEq] at h
      exact absurd h.1.symm (hword op)
  | code op operands =>
    rw [parts] at h
    cases content' with
    | data word =>
      rw [parts, List.cons.injEq] at h
      exact absurd h.1 (hword op)
    | code op' operands' =>
      rw [parts, List.cons.injEq] at h
      rw [Opcode.mnemonic_injective h.1,
        (List.map_inj_right fun _ _ => Operand.text_injective).mp h.2]

/-- **What a line shows can be told from its text.** -/
theorem Entry.content_eq_of_text_eq {e e' : Entry} (h : e.text = e'.text) :
    e.content = e'.content := by
  rw [e.text_eq, e'.text_eq] at h
  have hparts := eq_of_intercalate_blank (List.cons_ne_nil _ _) (List.cons_ne_nil _ _)
    e.blank_not_mem e'.blank_not_mem h
  exact Content.parts_injective (List.cons.inj hparts).2

/-! ### The words in the lines -/

/-- The words that a line shows. -/
def Content.words : Content → List Int
  | data word => [word]
  | code op operands => (op.code : Int) :: operands.map Operand.raw

variable {words : List Int} {a : Nat}

theorem map_raw_operandsIn {op : Opcode} (hfits : a + op.width ≤ words.length) :
    (op.operandsIn words a).map Operand.raw = (words.drop (a + 1)).take op.arity := by
  have hwidth : op.width = 1 + op.arity := rfl
  rw [Opcode.operandsIn, List.map_map]
  refine List.ext_getElem ?_ fun k hk _ => ?_
  · simp
    omega
  · simp only [List.length_map, List.length_range] at hk
    have hin : a + 1 + k < words.length := by omega
    simp [List.getElem?_eq_getElem hin]

/-- A line shows the words from its place on, as many as it is wide. -/
theorem Lists.words_append {content : Content} (h : Lists words a content)
    (ha : a < words.length) :
    words.drop a = content.words ++ words.drop (a + content.width) := by
  have hfirst : words.drop a = words.getD a 0 :: words.drop (a + 1) := by
    rw [List.drop_eq_getElem_cons ha, List.getD_eq_getElem _ _ ha]
  rw [hfirst]
  cases h with
  | code hop hfits =>
    rw [hop, Content.words, map_raw_operandsIn hfits, List.cons_append, Content.width,
      Opcode.width, ← Nat.add_assoc, ← List.drop_drop (j := a + 1), List.take_append_drop]
  | cut hop hcut =>
    rw [hop]
    rfl
  | unknown hword hunknown =>
    rw [hword]
    rfl

/-- **The lines of a listing show all words**, each once and in order. -/
theorem Sweeps.flatMap_words {entries : List Entry} (h : Sweeps words a entries) :
    entries.flatMap (fun e => e.content.words) = words.drop a := by
  induction h with
  | nil => exact (List.drop_length).symm
  | cons ha hcontent hrest ih => rw [List.flatMap_cons, ih, hcontent.words_append ha]

/-! ### The lines of a list of words -/

/-- The lines of the listing of a whole list of words. -/
def lines (words : List Int) : Except Int (List String) :=
  (sweep words).map fun entries => entries.map Entry.text

/-- **A listing loses nothing.**  Every list of words has a listing, and two lists of words have the
same lines only if they are the same list. -/
theorem lines_determine_words (words words' : List Int) :
    (∃ texts, lines words = .ok texts) ∧ (lines words = lines words' ↔ words = words') := by
  obtain ⟨entries, hsweep, hsweeps⟩ := exists_sweep words
  obtain ⟨entries', hsweep', hsweeps'⟩ := exists_sweep words'
  refine ⟨⟨entries.map Entry.text, by rw [lines, hsweep]; rfl⟩, fun h => ?_, fun h => h ▸ rfl⟩
  rw [lines, lines, hsweep, hsweep'] at h
  have htexts : entries.map Entry.text = entries'.map Entry.text := Except.ok.inj h
  -- equal texts show equal contents, line by line
  have hcontents : entries.map Entry.content = entries'.map Entry.content := by
    have hlength : entries.length = entries'.length := by
      have := congrArg List.length htexts
      rwa [List.length_map, List.length_map] at this
    refine List.ext_getElem (by simpa using hlength) fun k hk hk' => ?_
    rw [List.length_map] at hk hk'
    rw [List.getElem_map, List.getElem_map]
    apply Entry.content_eq_of_text_eq
    have := congrArg (fun texts : List String => texts[k]?) htexts
    simpa [hk, hk'] using this
  calc words = words.drop 0 := rfl
    _ = (entries.map Entry.content).flatMap Content.words := by
      rw [List.flatMap_map, hsweeps.flatMap_words]
    _ = (entries'.map Entry.content).flatMap Content.words := by rw [hcontents]
    _ = words' := by rw [List.flatMap_map, hsweeps'.flatMap_words, List.drop_zero]

end Listing

end WordMachine
