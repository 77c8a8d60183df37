/-
  The words of an image.

  Whatever an image is read from, it may have at most as many words as the memory has cells, and no
  word above 65535.
-/
import WordMachine.Image.Error

namespace WordMachine

namespace Image

/-- The first word, counted from `offset`, that is too large. -/
def firstLarge? (offset : Nat) : List Int → Option (Int × Nat)
  | [] => none
  | word :: rest => if 65535 < word then some (word, offset) else firstLarge? (offset + 1) rest

/-- Checks the words of an image: first their number, then each from the start.  Negative words are
left to those who store or encode the image. -/
def check (words : List Int) : Except ImageError (List Int) :=
  if 32768 < words.length then .error (.tooLong words.length)
  else match firstLarge? 0 words with
    | some (word, offset) => .error (.wordOutOfRange word offset)
    | none => .ok words

theorem firstLarge?_eq_none_iff {offset : Nat} {words : List Int} :
    firstLarge? offset words = none ↔ ∀ word ∈ words, word ≤ 65535 := by
  induction words generalizing offset with
  | nil => simp [firstLarge?]
  | cons word rest ih =>
    unfold firstLarge?
    split
    · simp; omega
    · rw [ih]
      simp only [List.mem_cons, forall_eq_or_imp]
      exact ⟨fun h => ⟨by omega, h⟩, fun h => h.2⟩

/-- The word that is found is too large, and no word in front of it is. -/
theorem firstLarge?_eq_some_iff {offset place : Nat} {words : List Int} {word : Int} :
    firstLarge? offset words = some (word, place) ↔ ∃ k, place = offset + k ∧
      words[k]? = some word ∧ 65535 < word ∧ ∀ j < k, ∀ x, words[j]? = some x → x ≤ 65535 := by
  induction words generalizing offset with
  | nil => simp [firstLarge?]
  | cons first rest ih =>
    unfold firstLarge?
    split
    · rename_i hlarge
      constructor
      · intro h
        cases h
        exact ⟨0, rfl, rfl, hlarge, fun j hj => absurd hj (Nat.not_lt_zero j)⟩
      · rintro ⟨k, rfl, hword, -, hbefore⟩
        cases k with
        | zero =>
          cases hword
          rfl
        | succ k =>
          have := hbefore 0 (Nat.succ_pos k) first rfl
          omega
    · rename_i hsmall
      rw [ih]
      constructor
      · rintro ⟨k, rfl, hword, hlarge, hbefore⟩
        refine ⟨k + 1, by omega, hword, hlarge, fun j hj x hx => ?_⟩
        cases j with
        | zero =>
          cases hx
          omega
        | succ j => exact hbefore j (Nat.lt_of_succ_lt_succ hj) x hx
      · rintro ⟨k, rfl, hword, hlarge, hbefore⟩
        cases k with
        | zero =>
          cases hword
          exact absurd hlarge hsmall
        | succ k =>
          exact ⟨k, by omega, hword, hlarge, fun j hj x hx =>
            hbefore (j + 1) (Nat.succ_lt_succ hj) x hx⟩

theorem check_eq_ok_iff {words result : List Int} :
    check words = .ok result ↔
      result = words ∧ words.length ≤ 32768 ∧ ∀ word ∈ words, word ≤ 65535 := by
  rw [← @firstLarge?_eq_none_iff 0]
  unfold check
  split
  · simp; omega
  · split
    · simp_all
    · simp_all [eq_comm]

/-- **What a check fails with**: the number of words, or the first word that is too large. -/
theorem check_eq_error_iff {words : List Int} {e : ImageError} : check words = .error e ↔
    (32768 < words.length ∧ e = .tooLong words.length) ∨
    (words.length ≤ 32768 ∧ ∃ word offset, e = .wordOutOfRange word offset ∧
      words[offset]? = some word ∧ 65535 < word ∧
      ∀ k < offset, ∀ x, words[k]? = some x → x ≤ 65535) := by
  unfold check
  split
  · rename_i hlong
    rw [Except.error.injEq]
    constructor
    · rintro rfl
      exact .inl ⟨hlong, rfl⟩
    · rintro (⟨-, rfl⟩ | ⟨hle, -⟩)
      · rfl
      · omega
  · rename_i hle
    split
    · rename_i word offset hfirst
      obtain ⟨k, hk, hword, hlarge, hbefore⟩ := firstLarge?_eq_some_iff.mp hfirst
      obtain rfl : offset = k := by omega
      rw [Except.error.injEq]
      constructor
      · rintro rfl
        exact .inr ⟨by omega, word, offset, rfl, hword, hlarge, hbefore⟩
      · rintro (⟨hlong, -⟩ | ⟨-, word', offset', rfl, hword', hlarge', hbefore'⟩)
        · omega
        · have hfirst' : firstLarge? 0 words = some (word', offset') :=
            firstLarge?_eq_some_iff.mpr ⟨offset', by omega, hword', hlarge', hbefore'⟩
          rw [hfirst] at hfirst'
          cases hfirst'
          rfl
    · rename_i hnone
      have hsmall := firstLarge?_eq_none_iff.mp hnone
      simp only [reduceCtorEq, false_iff]
      rintro (⟨hlong, -⟩ | ⟨-, word, offset, -, hword, hlarge, -⟩)
      · omega
      · have := hsmall word (List.mem_of_getElem? hword)
        omega

end Image

end WordMachine
