/-
  What the expansion of tabs does to a text.

  How many blanks stand for a tab depends on the column, but there is at least one of them, and all
  other characters stay (`Widens`).  No tab is left, so a text that has been expanded once does not
  change any more (`expandTabs_expandTabs`).
-/
import WordMachine.Text.Lines

namespace WordMachine

namespace Text

/-- A text **widens** to another one when each of its tabs becomes one or more blanks and each other
character stays. -/
inductive Widens : List Char → List Char → Prop
  | nil : Widens [] []
  | tab {rest wide : List Char} (n : Nat) (h : Widens rest wide) :
    Widens ('\t' :: rest) (List.replicate (n + 1) ' ' ++ wide)
  | char {c : Char} {rest wide : List Char} (hc : c ≠ '\t') (h : Widens rest wide) :
    Widens (c :: rest) (c :: wide)

theorem toList_pushBlanks (done : Array Char) (n : Nat) :
    (pushBlanks done n).toList = done.toList ++ List.replicate n ' ' := by
  induction n generalizing done with
  | zero => simp [pushBlanks]
  | succ n ih => rw [pushBlanks, ih, Array.toList_push, List.append_assoc, List.replicate_succ]; rfl

theorem exists_toList_expandFrom (column : Nat) (done : Array Char) (text : List Char) :
    ∃ wide, (expandFrom column done text).toList = done.toList ++ wide ∧ Widens text wide := by
  fun_induction expandFrom column done text with
  | case1 column done => exact ⟨[], by simp, .nil⟩
  | case2 column done rest gap ih =>
    obtain ⟨wide, hwide, h⟩ := ih
    -- the next tab stop is never at the column itself
    have hgap : gap = (7 - column % 8) + 1 := by
      show 8 - column % 8 = _
      omega
    refine ⟨List.replicate gap ' ' ++ wide, ?_, ?_⟩
    · rw [hwide, toList_pushBlanks, List.append_assoc]
    · rw [hgap]
      exact .tab _ h
  | case3 column done c rest hc hend ih | case4 column done c rest hc hend ih =>
    obtain ⟨wide, hwide, h⟩ := ih
    refine ⟨c :: wide, ?_, .char hc h⟩
    rw [hwide, Array.toList_push, List.append_assoc]
    rfl

/-- **Expanding tabs widens a text.** -/
theorem widens_expandTabs (text : List Char) : Widens text (expandTabs text) := by
  obtain ⟨wide, hwide, h⟩ := exists_toList_expandFrom 0 #[] text
  rw [expandTabs, hwide]
  exact h

/-- No tab is left. -/
theorem Widens.not_mem {text wide : List Char} (h : Widens text wide) : '\t' ∉ wide := by
  induction h with
  | nil => exact List.not_mem_nil
  | tab n h ih =>
    rw [List.mem_append, not_or]
    exact ⟨fun hmem => absurd (List.eq_of_mem_replicate hmem) (by decide), ih⟩
  | char hc h ih =>
    rw [List.mem_cons, not_or]
    exact ⟨hc.symm, ih⟩

theorem Widens.eq_of_not_mem {text wide : List Char} (h : Widens text wide) (htab : '\t' ∉ text) :
    wide = text := by
  induction h with
  | nil => rfl
  | tab n h ih => exact absurd List.mem_cons_self htab
  | char hc h ih => rw [ih (List.not_mem_of_not_mem_cons htab)]

/-- **Expanding tabs once is enough.** -/
theorem expandTabs_expandTabs (text : List Char) :
    expandTabs (expandTabs text) = expandTabs text :=
  (widens_expandTabs (expandTabs text)).eq_of_not_mem (widens_expandTabs text).not_mem

end Text

end WordMachine
