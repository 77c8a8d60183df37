/-
  Where a malformed text goes wrong.

  Reading stops at a character behind a beginning of the text that is read as a whole, and it stops
  there whatever follows (`StopsAt`).  As no text of the grammar is refused at a token
  (`readTokens_ne_unexpected`), none begins in this way, so that the place that is reported is the
  place of the first wrong token (`malformed_at_first_wrong_token`).
-/
import WordMachine.Proofs.TextDecoding

namespace WordMachine

/-! ### Places -/

namespace Text

/-- A place in a text **marks** the end of a beginning of it when as many lines are complete there
as its number says, with their line feeds, and as many characters of the next line precede it as its
column says. -/
def Position.Marks (position : Position) (before : List Char) : Prop :=
  ∃ (lines : List (List Char)) (line : List Char), before = lines.flatMap (· ++ ['\n']) ++ line ∧
    (∀ l ∈ lines, '\n' ∉ l) ∧ '\n' ∉ line ∧
    position.line = lines.length + 1 ∧ position.column = line.length + 1

/-- Every text is made of complete lines and the beginning of another one. -/
theorem exists_lines (text : List Char) : ∃ (lines : List (List Char)) (line : List Char),
    text = lines.flatMap (· ++ ['\n']) ++ line ∧ (∀ l ∈ lines, '\n' ∉ l) ∧ '\n' ∉ line := by
  induction text with
  | nil => exact ⟨[], [], rfl, List.forall_mem_nil _, List.not_mem_nil⟩
  | cons c text ih =>
    obtain ⟨lines, line, rfl, hlines, hline⟩ := ih
    by_cases hc : c = '\n'
    · subst hc
      exact ⟨[] :: lines, line, rfl, List.forall_mem_cons.mpr ⟨List.not_mem_nil, hlines⟩, hline⟩
    · -- the character starts the first line, which is the last one if none is complete
      cases lines with
      | nil =>
        refine ⟨[], c :: line, rfl, hlines, ?_⟩
        rw [List.mem_cons, not_or]
        exact ⟨Ne.symm hc, hline⟩
      | cons first lines =>
        obtain ⟨hfirst, hlines⟩ := List.forall_mem_cons.mp hlines
        refine ⟨(c :: first) :: lines, line, rfl, List.forall_mem_cons.mpr ⟨?_, hlines⟩, hline⟩
        rw [List.mem_cons, not_or]
        exact ⟨Ne.symm hc, hfirst⟩

theorem count_lines {lines : List (List Char)} (h : ∀ l ∈ lines, '\n' ∉ l) :
    (lines.flatMap (· ++ ['\n'])).count '\n' = lines.length := by
  induction lines with
  | nil => rfl
  | cons first lines ih =>
    obtain ⟨hfirst, hlines⟩ := List.forall_mem_cons.mp h
    rw [List.flatMap_cons, List.count_append, List.count_append,
      List.count_eq_zero_of_not_mem hfirst, ih hlines, List.length_cons]
    show 0 + 1 + lines.length = lines.length + 1
    omega

/-- Characters without a line feed belong to the last line. -/
theorem takeWhile_reverse_append {line : List Char} (h : '\n' ∉ line) (front : List Char) :
    (front ++ line).reverse.takeWhile (· ≠ '\n') =
      line.reverse ++ front.reverse.takeWhile (· ≠ '\n') := by
  have hline : ∀ c ∈ line.reverse, decide (c ≠ '\n') = true := by
    intro c hc
    apply decide_eq_true
    rintro rfl
    exact h (List.mem_reverse.mp hc)
  rw [List.reverse_append, List.takeWhile_append_of_pos hline]

theorem takeWhile_reverse_lines (lines : List (List Char)) :
    (lines.flatMap (· ++ ['\n'])).reverse.takeWhile (· ≠ '\n') = [] := by
  rcases List.eq_nil_or_concat lines with rfl | ⟨front, last, rfl⟩
  · rfl
  · simp

/-- **The place behind a beginning of a text** is the one that marks its end. -/
theorem Position.marks_iff {position : Position} {before : List Char} :
    position.Marks before ↔ position = .behind before := by
  have hbehind : ∀ (lines : List (List Char)) (line : List Char), (∀ l ∈ lines, '\n' ∉ l) →
      '\n' ∉ line → Position.behind (lines.flatMap (· ++ ['\n']) ++ line) =
        ⟨lines.length + 1, line.length + 1⟩ := by
    intro lines line hlines hline
    unfold Position.behind
    rw [takeWhile_reverse_append hline, takeWhile_reverse_lines, List.append_nil,
      List.length_reverse, List.count_append, count_lines hlines,
      List.count_eq_zero_of_not_mem hline, Nat.add_zero]
  constructor
  · rintro ⟨lines, line, rfl, hlines, hline, hnumber, hcolumn⟩
    rw [hbehind lines line hlines hline, ← hnumber, ← hcolumn]
  · rintro rfl
    obtain ⟨lines, line, rfl, hlines, hline⟩ := exists_lines before
    rw [hbehind lines line hlines hline]
    exact ⟨lines, line, rfl, hlines, hline, rfl, rfl⟩

/-- Behind more characters the place is another one. -/
theorem Position.behind_append {before more : List Char}
    (h : Position.behind (before ++ more) = .behind before) : more = [] := by
  unfold Position.behind at h
  rw [Position.mk.injEq, List.count_append] at h
  obtain ⟨hline, hcolumn⟩ := h
  have hmore : '\n' ∉ more := List.count_eq_zero.mp (by omega)
  rw [takeWhile_reverse_append hmore, List.length_append, List.length_reverse] at hcolumn
  exact List.length_eq_zero_iff.mp (by omega)

/-- A place marks one beginning of a text at most. -/
theorem Position.Marks.unique {position : Position} {text before before' : List Char}
    (h : position.Marks before) (h' : position.Marks before') (hbefore : before <+: text)
    (hbefore' : before' <+: text) : before = before' := by
  rw [Position.marks_iff] at h h'
  rcases List.prefix_or_prefix_of_prefix hbefore hbefore' with ⟨more, rfl⟩ | ⟨more, rfl⟩
  · rw [Position.behind_append (h'.symm.trans h), List.append_nil]
  · rw [Position.behind_append (h.symm.trans h'), List.append_nil]

end Text

namespace Image

namespace Textual

/-! ### Where reading stops -/

/-- Reading **stops at** a character behind a beginning of a text when it gets through the beginning
and is refused at the character, whatever follows. -/
structure StopsAt (expected : Expected) (done : Array Int) (before : List Char) (c : Char) :
    Prop where
  /-- The beginning is read. -/
  read : ∃ all, readTokens expected done before = .ok all
  /-- The character is refused. -/
  refused : ∀ tail,
    readTokens expected done (before ++ c :: tail) = .error (.unexpected (c :: tail))
  /-- The beginning does not end inside of a comment. -/
  not_inComment : ¬ InComment before
  /-- The character starts no comment. -/
  not_hash : c ≠ '#'
  /-- The character is no blank. -/
  not_blank : isBlank c = false

section StopsAt

variable {expected : Expected} {done : Array Int} {gap before : List Char} {c : Char}

/-- Reading stops at a character that starts no token of the expected kind. -/
theorem stopsAt_of_layout (hgap : IsLayout gap) (hhash : c ≠ '#') (hblank : isBlank c = false)
    (hnumeral : expected = .numeral → Decimal.isDigit c = false)
    (hcomma : expected = .comma → c ≠ ',') : StopsAt expected done gap c where
  read := ⟨done, readTokens_ending (skip_ending (.inl hgap)) expected done⟩
  refused := by
    intro tail
    have hskip : skip false (gap ++ c :: tail) = c :: tail := by
      rw [skip_layout hgap, skip_token hhash hblank]
    rw [readTokens_token hskip]
    cases expected with
    | numeral => simp only [hnumeral rfl, Bool.false_eq_true, if_false]
    | comma => simp only [if_neg (hcomma rfl)]
  not_inComment := hgap.not_inComment
  not_hash := hhash
  not_blank := hblank

/-- A numeral in front is read. -/
theorem StopsAt.numeral {digits : List Char}
    (h : StopsAt .comma (done.push (Decimal.value digits)) before c) (hgap : IsLayout gap)
    (hdigits : IsNumeral digits) (hlength : digits.length ≤ 4300)
    (hnext : ∀ d tail, before ++ [c] = d :: tail → Decimal.isDigit d = false) :
    StopsAt .numeral done (gap ++ (digits ++ before)) c where
  read := by
    have hbefore : ∀ d tail, before = d :: tail → Decimal.isDigit d = false := by
      rintro d tail rfl
      exact hnext d (tail ++ [c]) rfl
    rw [readTokens_numeral hgap hdigits hlength hbefore]
    exact h.read
  refused := by
    intro tail
    -- the first character behind the digits is the same whatever follows
    have hbehind : ∀ d rest, before ++ c :: tail = d :: rest → Decimal.isDigit d = false := by
      intro d rest heq
      cases before with
      | nil =>
        obtain ⟨rfl, -⟩ := List.cons.inj heq
        exact hnext c [] rfl
      | cons first before =>
        obtain ⟨rfl, -⟩ := List.cons.inj heq
        exact hnext first (before ++ [c]) rfl
    rw [List.append_assoc, List.append_assoc, readTokens_numeral hgap hdigits hlength hbehind]
    exact h.refused tail
  not_inComment hin :=
    h.not_inComment ((hin.of_append hgap.not_inComment).of_append hdigits.not_inComment)
  not_hash := h.not_hash
  not_blank := h.not_blank

/-- A comma in front is read. -/
theorem StopsAt.comma (h : StopsAt .numeral done before c) (hgap : IsLayout gap) :
    StopsAt .comma done (gap ++ ',' :: before) c where
  read := by
    rw [readTokens_comma hgap]
    exact h.read
  refused := by
    intro tail
    rw [List.append_assoc, List.cons_append, readTokens_comma hgap]
    exact h.refused tail
  not_inComment := by
    intro hin
    have hin : InComment ([','] ++ before) := hin.of_append hgap.not_inComment
    exact h.not_inComment (hin.of_append (not_inComment_of_not_mem (by decide)))
  not_hash := h.not_hash
  not_blank := h.not_blank

/-- A token starts with a character that is no layout. -/
theorem token_of_skip {text rest : List Char} (h : skip false text = c :: rest) :
    c ≠ '#' ∧ isBlank c = false := by
  rcases skip_cases text with ⟨-, hskip⟩ | ⟨gap, c', rest', -, -, hskip, hhash, hblank⟩
  · rw [h] at hskip
    cases hskip
  · rw [h] at hskip
    cases hskip
    exact ⟨hhash, hblank⟩

/-- **What is refused at a token is refused at the first one that may not stand there.** -/
theorem exists_stopsAt {text rest : List Char}
    (h : readTokens expected done text = .error (.unexpected rest)) :
    ∃ before c after, text = before ++ c :: after ∧ rest = c :: after ∧
      StopsAt expected done before c := by
  -- the tokens that are read are put in front one by one
  fun_induction readTokens expected done text with
  | case1 => cases h
  | case2 => cases h
  | case3 done text d tail hskip hlt hd digits hshort ih =>
    obtain ⟨before, c, after, htail, hrest, hstops⟩ := ih h
    obtain ⟨gap, hgap, hdigits, htext⟩ := exists_numeral_of_skip hskip hd
    refine ⟨gap ++ (digits ++ before), c, after, ?_, hrest, ?_⟩
    · rw [htext, htail, List.append_assoc, List.append_assoc]
    · apply hstops.numeral hgap hdigits (Nat.le_of_not_lt hshort)
      intro e front heq
      have hdrop : tail.dropWhile Decimal.isDigit = e :: (front ++ after) := by
        rw [htail, List.append_cons, heq]
        rfl
      exact isDigit_of_dropWhile hdrop
  | case4 done text c rest hskip hlt hc =>
    cases h
    obtain ⟨gap, hgap, htext⟩ := exists_layout_of_skip hskip
    obtain ⟨hhash, hblank⟩ := token_of_skip hskip
    refine ⟨gap, c, rest, htext, rfl, stopsAt_of_layout hgap hhash hblank ?_ ?_⟩
    · exact fun _ => Bool.eq_false_iff.mpr hc
    · rintro ⟨⟩
  | case5 done text tail hskip hlt ih =>
    obtain ⟨before, c, after, htail, hrest, hstops⟩ := ih h
    obtain ⟨gap, hgap, htext⟩ := exists_layout_of_skip hskip
    refine ⟨gap ++ ',' :: before, c, after, ?_, hrest, hstops.comma hgap⟩
    rw [htext, htail, List.append_assoc, List.cons_append]
  | case6 done text c rest hskip hlt hc =>
    cases h
    obtain ⟨gap, hgap, htext⟩ := exists_layout_of_skip hskip
    obtain ⟨hhash, hblank⟩ := token_of_skip hskip
    refine ⟨gap, c, rest, htext, rfl, stopsAt_of_layout hgap hhash hblank ?_ ?_⟩
    · rintro ⟨⟩
    · exact fun _ => hc

end StopsAt

/-! ### Texts of the grammar -/

theorem readTokens_numerals_ne_unexpected {text : List Char} {words : List Int}
    (h : Numerals text words) (done : Array Int) (rest : List Char) :
    readTokens .numeral done text ≠ .error (.unexpected rest) := by
  -- a long numeral ends the reading in another way, and any other one leaves what is behind it
  have hnumeral : ∀ {digits : List Char} {result : Except Failure (Array Int)},
      result ≠ .error (.unexpected rest) →
      (if 4300 < digits.length then .error .longNumeral else result) ≠
        .error (.unexpected rest) := by
    intro digits result hresult
    split
    · nofun
    · exact hresult
  induction h generalizing done with
  | last hgap hdigits hending =>
    rw [readTokens_digits hgap hdigits (isDigit_of_ending hending)]
    apply hnumeral
    rw [readTokens_ending (skip_ending hending)]
    nofun
  | trailing hgap hdigits hgap' hending =>
    rw [readTokens_digits hgap hdigits (isDigit_of_comma hgap')]
    apply hnumeral
    rw [readTokens_comma hgap', readTokens_ending (skip_ending hending)]
    nofun
  | next hgap hdigits hgap' hrest ih =>
    rw [readTokens_digits hgap hdigits (isDigit_of_comma hgap')]
    apply hnumeral
    rw [readTokens_comma hgap']
    exact ih _

/-- **A text that spells words is not refused at a token**, however long its numerals are. -/
theorem readTokens_ne_unexpected {text : List Char} {words : List Int} (h : Spells text words)
    (rest : List Char) : readTokens .numeral #[] text ≠ .error (.unexpected rest) := by
  rcases h with ⟨hending, -⟩ | hnumerals
  · rw [readTokens_ending (skip_ending hending)]
    nofun
  · exact readTokens_numerals_ne_unexpected hnumerals #[] rest

/-- What has been read up to the place is a text of the grammar, and nothing that goes on with the
refused character is. -/
theorem StopsAt.first {before : List Char} {c : Char} (h : StopsAt .numeral #[] before c) :
    (∃ words, Spells before words) ∧ ∀ tail words, ¬ Spells (before ++ c :: tail) words := by
  constructor
  · obtain ⟨all, hall⟩ := h.read
    obtain ⟨words, hwords, -⟩ := comes_of_readTokens hall
    exact ⟨words, hwords⟩
  · intro tail words hspells
    exact readTokens_ne_unexpected hspells (c :: tail) (h.refused tail)

/-! ### The place of an error -/

/-- The error names the place behind the beginning that has been read, tabs expanded. -/
theorem decode_of_expanded {text before after : List Char} {c : Char}
    (htext : Text.expandTabs text = before ++ c :: after)
    (h : readTokens .numeral #[] (Text.expandTabs text) = .error (.unexpected (c :: after))) :
    decode text = .error (.image (.malformed (.behind before))) := by
  have htake : (Text.expandTabs text).take ((Text.expandTabs text).length - (c :: after).length) =
      before := by
    rw [htext, List.length_append, Nat.add_sub_cancel, List.take_left]
  unfold decode
  dsimp only
  rw [h]
  dsimp only
  rw [htake]

theorem exists_stopsAt_expandTabs {text : List Char} (hshort : ShortNumerals text)
    (hnone : ¬ ∃ words, Spells text words) : ∃ before c after,
      Text.expandTabs text = before ++ c :: after ∧ StopsAt .numeral #[] before c := by
  rcases readTokens_cases hshort with ⟨all, -, hspells⟩ | ⟨rest, hread, -⟩
  · exact absurd ⟨all.toList, hspells⟩ hnone
  · have hsame := readTokens_widens (Text.widens_expandTabs text) .numeral #[]
    rw [hread] at hsame
    generalize hwide : readTokens .numeral #[] (Text.expandTabs text) = result at hsame
    cases hsame with
    | unexpected rest rest' =>
      obtain ⟨before, c, after, htext, -, hstops⟩ := exists_stopsAt hwide
      exact ⟨before, c, after, htext, hstops⟩

/-- **A malformed text is refused at its first wrong token.**  Where no run of digits outside of
comments is longer than 4300 digits, a text that spells no words is refused with the line and the
column of a character of the text, tabs expanded.  What precedes this character is a text of the
grammar, and no text of the grammar goes on with the character.  It is no blank, does not start a
comment and does not stand in one, and no other place of the text has this line and column. -/
theorem malformed_at_first_wrong_token {text : List Char} (hshort : ShortNumerals text)
    (hnone : ¬ ∃ words, Spells text words) : ∃ position : Text.Position,
      decode text = .error (.image (.malformed position)) ∧
      ImageError.message (.malformed position) =
        s!"Bad text image at line {position.line}, column {position.column}" ∧
      ∃ before c after, Text.expandTabs text = before ++ c :: after ∧
        position.Marks before ∧
        (∀ before', before' <+: Text.expandTabs text → position.Marks before' → before' = before) ∧
        (∃ words, Spells before words) ∧
        (∀ tail words, ¬ Spells (before ++ c :: tail) words) ∧
        ¬ InComment before ∧ c ≠ '#' ∧ isBlank c = false := by
  obtain ⟨before, c, after, htext, hstops⟩ := exists_stopsAt_expandTabs hshort hnone
  have hdecode : decode text = .error (.image (.malformed (.behind before))) := by
    apply decode_of_expanded htext
    rw [htext]
    exact hstops.refused after
  have hmarks : (Text.Position.behind before).Marks before := Text.Position.marks_iff.mpr rfl
  have hprefix : before <+: Text.expandTabs text := ⟨c :: after, htext.symm⟩
  obtain ⟨hbefore, hnothing⟩ := hstops.first
  refine ⟨.behind before, hdecode, rfl, before, c, after, htext, hmarks, ?_, hbefore, hnothing,
    hstops.not_inComment, hstops.not_hash, hstops.not_blank⟩
  intro before' hprefix' hmarks'
  exact hmarks'.unique hmarks hprefix' hprefix

/-- A tab and a comment in front of a comma too many: its place is the eleventh column of the second
line. -/
theorem malformed_at_second_comma : ∃ text : List Char,
    text = ['1', ',', '#', ',', ',', '\n', '\t', '2', ',', ',', '3'] ∧ ShortNumerals text ∧
      (¬ ∃ words, Spells text words) ∧
      decode text = .error (.image (.malformed ⟨2, 11⟩)) ∧
      ∃ before c after, Text.expandTabs text = before ++ c :: after ∧
        Text.Position.Marks ⟨2, 11⟩ before ∧ (∃ words, Spells before words) ∧
        ∀ tail words, ¬ Spells (before ++ c :: tail) words := by
  generalize htext : ['1', ',', '#', ',', ',', '\n', '\t', '2', ',', ',', '3'] = text
  have hshort : ShortNumerals text := by
    apply shortNumerals_of_length_le
    rw [← htext]
    decide
  have hdecode : decode text = .error (.image (.malformed ⟨2, 11⟩)) := by
    rw [← htext]
    cbv
  have hnone : ¬ ∃ words, Spells text words := (decode_eq_malformed_iff hshort).mp ⟨_, hdecode⟩
  obtain ⟨position, hposition, -, before, c, after, hexpanded, hmarks, -, hbefore, hnothing, -⟩ :=
    malformed_at_first_wrong_token hshort hnone
  rw [hdecode] at hposition
  cases hposition
  exact ⟨text, rfl, hshort, hnone, hdecode, before, c, after, hexpanded, hmarks, hbefore, hnothing⟩

end Textual

end Image

end WordMachine
