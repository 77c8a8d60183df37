/-
  The texts that are images.

  `Spells text words` says that a text is a list of decimal numerals for the words, with single
  commas between them, perhaps one more behind the last, and blanks and comments around all of
  these.  What the lexer drops in front of a token is exactly such layout (`skip_layout` and
  `skip_cases`), and what it takes for a numeral is a whole run of digits (`takeWhile_digits`).
-/
import WordMachine.Image.Textual

namespace WordMachine

namespace Image

namespace Textual

/-! ### The grammar -/

/-- **Layout** is made of blanks and of comments, each with the line feed that ends its line. -/
inductive IsLayout : List Char → Prop
  | nil : IsLayout []
  | blank {c : Char} {rest : List Char} (hc : isBlank c = true) (h : IsLayout rest) :
    IsLayout (c :: rest)
  | comment {body rest : List Char} (hbody : '\n' ∉ body) (h : IsLayout rest) :
    IsLayout ('#' :: (body ++ '\n' :: rest))

/-- Layout at the end of a text: the last comment may go on to the end. -/
def IsEnding (text : List Char) : Prop :=
  IsLayout text ∨ ∃ gap body, IsLayout gap ∧ '\n' ∉ body ∧ text = gap ++ '#' :: body

/-- A numeral has at least one digit, and nothing else. -/
structure IsNumeral (digits : List Char) : Prop where
  /-- There is a digit. -/
  ne_nil : digits ≠ []
  /-- All characters are digits. -/
  digit : ∀ c ∈ digits, Decimal.isDigit c = true

/-- `Numerals text words` says that a text is made of at least one numeral, with single commas
between the numerals and at most one behind the last, in layout, and that the words are the values
of the numerals. -/
inductive Numerals : List Char → List Int → Prop
  | last {gap digits ending : List Char} (hgap : IsLayout gap) (hdigits : IsNumeral digits)
    (hending : IsEnding ending) :
    Numerals (gap ++ (digits ++ ending)) [(Decimal.value digits : Int)]
  | trailing {gap digits gap' ending : List Char} (hgap : IsLayout gap) (hdigits : IsNumeral digits)
    (hgap' : IsLayout gap') (hending : IsEnding ending) :
    Numerals (gap ++ (digits ++ (gap' ++ ',' :: ending))) [(Decimal.value digits : Int)]
  | next {gap digits gap' rest : List Char} {words : List Int} (hgap : IsLayout gap)
    (hdigits : IsNumeral digits) (hgap' : IsLayout gap') (h : Numerals rest words) :
    Numerals (gap ++ (digits ++ (gap' ++ ',' :: rest))) (Decimal.value digits :: words)

/-- **A text spells words** when it is empty but for layout and there are none, or when it is made
of the numerals of these words. -/
def Spells (text : List Char) (words : List Int) : Prop :=
  (IsEnding text ∧ words = []) ∨ Numerals text words

/-- A beginning of a text ends in a comment when there is a `#` in its last line. -/
def InComment (before : List Char) : Prop :=
  ∃ front body, before = front ++ '#' :: body ∧ '\n' ∉ body

/-- No run of digits outside of the comments of a text is longer than 4300 digits. -/
def ShortNumerals (text : List Char) : Prop :=
  ∀ before digits after, text = before ++ (digits ++ after) → ¬ InComment before →
    (∀ c ∈ digits, Decimal.isDigit c = true) → digits.length ≤ 4300

/-! ### Layout -/

theorem IsLayout.append {gap gap' : List Char} (h : IsLayout gap) (h' : IsLayout gap') :
    IsLayout (gap ++ gap') := by
  induction h with
  | nil => exact h'
  | blank hc h ih => exact .blank hc ih
  | comment hbody h ih =>
    rw [List.cons_append, List.append_assoc]
    exact .comment hbody ih

theorem IsEnding.append {gap text : List Char} (h : IsEnding text) (hgap : IsLayout gap) :
    IsEnding (gap ++ text) := by
  rcases h with h | ⟨gap', body, hgap', hbody, rfl⟩
  · exact .inl (hgap.append h)
  · exact .inr ⟨gap ++ gap', body, hgap.append hgap', hbody, by rw [List.append_assoc]⟩

/-- A comment at the end of a text is dropped. -/
theorem skip_comment {body : List Char} (h : '\n' ∉ body) : skip true body = [] := by
  induction body with
  | nil => rfl
  | cons c rest ih =>
    rw [List.mem_cons, not_or] at h
    have hc : decide (c ≠ '\n') = true := decide_eq_true (Ne.symm h.1)
    rw [skip, if_pos rfl, hc, ih h.2]

/-- A comment is dropped, together with its line feed. -/
theorem skip_comment_append {body : List Char} (h : '\n' ∉ body) (rest : List Char) :
    skip true (body ++ '\n' :: rest) = skip false rest := by
  induction body with
  | nil => rfl
  | cons c body ih =>
    rw [List.mem_cons, not_or] at h
    have hc : decide (c ≠ '\n') = true := decide_eq_true (Ne.symm h.1)
    rw [List.cons_append, skip, if_pos rfl, hc, ih h.2]

theorem skip_blank {c : Char} (h : isBlank c = true) (rest : List Char) :
    skip false (c :: rest) = skip false rest := by
  have hc : c ≠ '#' := by
    rintro rfl
    cases h
  rw [skip, if_neg Bool.false_ne_true, if_neg hc, if_pos h]

/-- A character that starts a token is not dropped. -/
theorem skip_token {c : Char} (hc : c ≠ '#') (hblank : isBlank c = false) (rest : List Char) :
    skip false (c :: rest) = c :: rest := by
  rw [skip, if_neg Bool.false_ne_true, if_neg hc, hblank, if_neg Bool.false_ne_true]

/-- **Layout is dropped.** -/
theorem skip_layout {gap : List Char} (h : IsLayout gap) (rest : List Char) :
    skip false (gap ++ rest) = skip false rest := by
  induction h with
  | nil => rfl
  | blank hc h ih => rw [List.cons_append, skip_blank hc, ih]
  | @comment body gap hbody h ih =>
    rw [List.cons_append, List.append_assoc, List.cons_append, skip, if_neg Bool.false_ne_true,
      if_pos rfl, skip_comment_append hbody, ih]

theorem skip_ending {text : List Char} (h : IsEnding text) : skip false text = [] := by
  rcases h with h | ⟨gap, body, hgap, hbody, rfl⟩
  · have hskip := skip_layout h []
    rwa [List.append_nil] at hskip
  · rw [skip_layout hgap, skip, if_neg Bool.false_ne_true, if_pos rfl, skip_comment hbody]

/-- **What is dropped is layout**, up to the end or up to the first character of a token. -/
theorem skip_cases (text : List Char) : (IsEnding text ∧ skip false text = []) ∨
    ∃ gap c rest, IsLayout gap ∧ text = gap ++ c :: rest ∧ skip false text = c :: rest ∧
      c ≠ '#' ∧ isBlank c = false := by
  -- by induction on the length, since a comment is dropped as a whole
  induction hlength : text.length using Nat.strongRecOn generalizing text with
  | ind length ih =>
  -- what comes behind a piece of layout is known already
  have hbehind : ∀ gap rest, IsLayout gap → text = gap ++ rest → rest.length < text.length →
      (IsEnding text ∧ skip false text = []) ∨ ∃ gap c rest, IsLayout gap ∧
        text = gap ++ c :: rest ∧ skip false text = c :: rest ∧ c ≠ '#' ∧ isBlank c = false := by
    rintro gap rest hgap rfl hlt
    rw [skip_layout hgap]
    rcases ih rest.length (by omega) rest rfl with
      ⟨hending, hskip⟩ | ⟨gap', c, tail, hgap', rfl, hskip, hc, hblank⟩
    · exact .inl ⟨hending.append hgap, hskip⟩
    · refine .inr ⟨gap ++ gap', c, tail, hgap.append hgap', ?_, hskip, hc, hblank⟩
      rw [List.append_assoc]
  cases text with
  | nil => exact .inl ⟨.inl .nil, rfl⟩
  | cons c rest =>
    by_cases hc : c = '#'
    · subst hc
      by_cases hclosed : '\n' ∈ rest
      · obtain ⟨body, tail, rfl, hbody⟩ := List.eq_append_cons_of_mem hclosed
        apply hbehind ('#' :: (body ++ ['\n'])) tail (.comment hbody .nil)
        · simp
        · simp only [List.length_cons, List.length_append]
          omega
      · have hending : IsEnding ('#' :: rest) := .inr ⟨[], rest, .nil, hclosed, rfl⟩
        exact .inl ⟨hending, skip_ending hending⟩
    · cases hblank : isBlank c with
      | true => exact hbehind [c] rest (.blank hblank .nil) rfl (by simp)
      | false => exact .inr ⟨[], c, rest, .nil, rfl, skip_token hc hblank rest, hc, hblank⟩

theorem isEnding_of_skip {text : List Char} (h : skip false text = []) : IsEnding text := by
  rcases skip_cases text with ⟨hending, -⟩ | ⟨gap, c, rest, -, -, hskip, -⟩
  · exact hending
  · rw [h] at hskip
    cases hskip

theorem exists_layout_of_skip {text rest : List Char} {c : Char} (h : skip false text = c :: rest) :
    ∃ gap, IsLayout gap ∧ text = gap ++ c :: rest := by
  rcases skip_cases text with ⟨-, hskip⟩ | ⟨gap, c', rest', hgap, htext, hskip, -⟩
  · rw [h] at hskip
    cases hskip
  · rw [h] at hskip
    cases hskip
    exact ⟨gap, hgap, htext⟩

/-! ### Runs of digits -/

theorem isDigit_token {c : Char} (h : Decimal.isDigit c = true) : c ≠ '#' ∧ isBlank c = false := by
  have hnot : ∀ d, Decimal.isDigit d = false → c ≠ d := by
    rintro d hd rfl
    rw [h] at hd
    cases hd
  refine ⟨hnot '#' rfl, ?_⟩
  simp [isBlank, hnot ' ' rfl, hnot '\t' rfl, hnot '\n' rfl, hnot '\r' rfl]

/-- A run of digits ends in front of another character. -/
theorem takeWhile_digits {digits rest : List Char}
    (hdigits : ∀ c ∈ digits, Decimal.isDigit c = true)
    (hrest : ∀ c tail, rest = c :: tail → Decimal.isDigit c = false) :
    (digits ++ rest).takeWhile Decimal.isDigit = digits ∧
      (digits ++ rest).dropWhile Decimal.isDigit = rest := by
  rw [List.takeWhile_append_of_pos hdigits, List.dropWhile_append_of_pos hdigits]
  cases rest with
  | nil => exact ⟨List.append_nil digits, rfl⟩
  | cons c tail => simp [hrest c tail rfl]

/-- What is behind a run of digits does not start with one. -/
theorem isDigit_of_dropWhile {text tail : List Char} {c : Char}
    (h : text.dropWhile Decimal.isDigit = c :: tail) : Decimal.isDigit c = false := by
  have hhead := List.head?_dropWhile_not Decimal.isDigit text
  rwa [h] at hhead

/-- No token that may follow a numeral goes on with a digit. -/
theorem isDigit_of_skip {rest : List Char}
    (h : ∀ c tail, skip false rest = c :: tail → Decimal.isDigit c = false) :
    ∀ c tail, rest = c :: tail → Decimal.isDigit c = false := by
  rintro c tail rfl
  cases hdigit : Decimal.isDigit c with
  | false => rfl
  | true =>
    -- a digit is no layout, so it would be the start of the next token
    obtain ⟨hhash, hblank⟩ := isDigit_token hdigit
    rw [h c tail (skip_token hhash hblank tail)] at hdigit
    cases hdigit

theorem isDigit_of_ending {ending : List Char} (h : IsEnding ending) :
    ∀ c tail, ending = c :: tail → Decimal.isDigit c = false := by
  apply isDigit_of_skip
  intro c tail heq
  rw [skip_ending h] at heq
  cases heq

theorem isDigit_of_comma {gap rest : List Char} (h : IsLayout gap) :
    ∀ c tail, gap ++ ',' :: rest = c :: tail → Decimal.isDigit c = false := by
  apply isDigit_of_skip
  intro c tail heq
  rw [skip_layout h, skip_token (by decide) (by decide)] at heq
  cases heq
  rfl

/-! A `#` that stands in layout is followed by the end of its line, and none stands in a numeral, so
that what comes behind them is no part of a comment. -/

theorem InComment.of_append {front text : List Char} (h : InComment (front ++ text))
    (hfront : ¬ InComment front) : InComment text := by
  obtain ⟨before, body, heq, hbody⟩ := h
  rcases List.append_eq_append_iff.mp heq with ⟨between, -, htext⟩ | ⟨between, hbefore, hbehind⟩
  · exact ⟨between, body, htext, hbody⟩
  · cases between with
    | nil => exact ⟨[], body, hbehind.symm, hbody⟩
    | cons c between =>
      -- a comment that starts in front and goes on to the end covers the end of the front part
      rw [List.cons_append, List.cons.injEq] at hbehind
      obtain ⟨rfl, rfl⟩ := hbehind
      rw [List.mem_append, not_or] at hbody
      exact absurd ⟨before, between, hbefore, hbody.1⟩ hfront

theorem not_inComment_of_not_mem {text : List Char} (h : '#' ∉ text) : ¬ InComment text := by
  rintro ⟨before, body, rfl, -⟩
  exact h (List.mem_append_right before List.mem_cons_self)

theorem not_inComment_line (line : List Char) : ¬ InComment (line ++ ['\n']) := by
  rintro ⟨before, body, heq, hbody⟩
  rcases List.append_eq_append_iff.mp heq with ⟨between, -, hend⟩ | ⟨between, -, hend⟩
  · cases between with
    | nil => cases hend
    | cons c between => simp at hend
  · cases between with
    | nil => cases hend
    | cons c between =>
      rw [List.cons_append, List.cons.injEq] at hend
      rw [hend.2] at hbody
      exact hbody (List.mem_append_right between List.mem_cons_self)

theorem IsLayout.not_inComment {gap : List Char} (h : IsLayout gap) : ¬ InComment gap := by
  induction h with
  | nil => exact not_inComment_of_not_mem List.not_mem_nil
  | @blank c rest hc h ih =>
    have hhash : '#' ∉ [c] := by
      rw [List.mem_singleton]
      rintro rfl
      cases hc
    intro hin
    have hin : InComment ([c] ++ rest) := hin
    exact ih (hin.of_append (not_inComment_of_not_mem hhash))
  | @comment body rest hbody h ih =>
    intro hin
    rw [show '#' :: (body ++ '\n' :: rest) = ('#' :: body ++ ['\n']) ++ rest by simp] at hin
    exact ih (hin.of_append (not_inComment_line _))

theorem IsNumeral.not_inComment {digits : List Char} (h : IsNumeral digits) :
    ¬ InComment digits :=
  not_inComment_of_not_mem fun hmem => (isDigit_token (h.digit _ hmem)).1 rfl

/-- Behind a part of a text that does not end in a comment, the runs of digits are runs of digits of
the text. -/
theorem ShortNumerals.of_append {front text : List Char} (h : ShortNumerals (front ++ text))
    (hfront : ¬ InComment front) : ShortNumerals text := by
  intro before digits after htext hbefore hdigits
  refine h (front ++ before) digits after ?_ (fun hin => hbefore (hin.of_append hfront)) hdigits
  rw [htext, List.append_assoc]

theorem ShortNumerals.length_le {gap digits rest : List Char}
    (h : ShortNumerals (gap ++ (digits ++ rest))) (hgap : IsLayout gap)
    (hdigits : IsNumeral digits) : digits.length ≤ 4300 :=
  h gap digits rest rfl hgap.not_inComment hdigits.digit

theorem ShortNumerals.rest {gap digits rest : List Char}
    (h : ShortNumerals (gap ++ (digits ++ rest))) (hgap : IsLayout gap)
    (hdigits : IsNumeral digits) : ShortNumerals rest :=
  (h.of_append hgap.not_inComment).of_append hdigits.not_inComment

theorem ShortNumerals.behind_comma {gap rest : List Char}
    (h : ShortNumerals (gap ++ ',' :: rest)) (hgap : IsLayout gap) : ShortNumerals rest := by
  have hcomma : ShortNumerals ([','] ++ rest) := h.of_append hgap.not_inComment
  exact hcomma.of_append (not_inComment_of_not_mem (by decide))

/-- In a text of at most 4300 characters all numerals are short. -/
theorem shortNumerals_of_length_le {text : List Char} (h : text.length ≤ 4300) :
    ShortNumerals text := by
  rintro before digits after rfl - -
  simp only [List.length_append] at h
  omega

end Textual

end Image

end WordMachine
