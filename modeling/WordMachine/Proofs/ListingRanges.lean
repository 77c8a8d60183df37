/-
  Listings of a part of an image.

  A listing that stops in front of some address is the listing of the words up to there
  (`sweep_take`), so that what holds of listings to the end of a list holds of all of them.  The lines
  of such a listing tile its range (`Sweeps.tiles`), and they can be cut at the address of each line:
  the lines in front of it are the listing that stops there, and the others are the listing that
  starts there (`Sweeps.exists_append`).  `sweep_tiles` puts these together.
-/
import WordMachine.Proofs.ListingText

namespace WordMachine

namespace Listing

variable {words : List Int} {a stop : Nat} {content content' : Content} {entries : List Entry}

/-! ### Up to an address -/

theorem getD_take {k : Nat} (hk : k < stop) : (words.take stop).getD k 0 = words.getD k 0 := by
  simp [List.getD_eq_getElem?_getD, List.getElem?_take_of_lt hk]

theorem operandsIn_take {op : Opcode} (hfits : a + op.width ≤ stop) :
    op.operandsIn (words.take stop) a = op.operandsIn words a := by
  have hwidth : op.width = 1 + op.arity := rfl
  unfold Opcode.operandsIn
  apply List.map_congr_left
  intro k hk
  rw [List.mem_range] at hk
  rw [getD_take (by omega)]

theorem Lists.unique (h : Lists words a content) (h' : Lists words a content') :
    content = content' := by
  cases h with
  | code hop hfits =>
    cases h' with
    | code hop' hfits' =>
      rw [hop, Int.natCast_inj] at hop'
      rw [Opcode.code_injective hop']
    | cut hop' hcut' =>
      rw [hop, Int.natCast_inj] at hop'
      rw [Opcode.code_injective hop'] at hfits
      omega
    | unknown hword hunknown =>
      rw [← hword, hop, Opcode.ofCode?_code] at hunknown
      cases hunknown
  | cut hop hcut =>
    cases h' with
    | code hop' hfits' =>
      rw [hop, Int.natCast_inj] at hop'
      rw [Opcode.code_injective hop'] at hcut
      omega
    | cut hop' hcut' => rw [← hop, hop']
    | unknown hword hunknown => rw [← hword, hop]
  | unknown hword hunknown =>
    cases h' with
    | code hop' hfits' =>
      rw [← hword, hop', Opcode.ofCode?_code] at hunknown
      cases hunknown
    | cut hop' hcut' => rw [← hword, hop']
    | unknown hword' hunknown' => rw [← hword, hword']

theorem Sweeps.unique {entries' : List Entry} (h : Sweeps words a entries)
    (h' : Sweeps words a entries') : entries = entries' := by
  induction h generalizing entries' with
  | nil =>
    cases h' with
    | nil => rfl
    | cons ha' hcontent' hrest' => omega
  | cons ha hcontent hrest ih =>
    cases h' with
    | nil => omega
    | cons ha' hcontent' hrest' =>
      obtain rfl := hcontent.unique hcontent'
      rw [ih hrest']

theorem Lists.length_words (h : Lists words a content) : content.words.length = content.width := by
  cases h with
  | code hop hfits =>
    simp [Content.words, Content.width, Opcode.width, Opcode.operandsIn, Nat.add_comm]
  | cut hop hcut => rfl
  | unknown hword hunknown => rfl

theorem Sweeps.address_eq {e : Entry} (h : Sweeps words a (e :: entries)) : e.address = a := by
  cases h
  rfl

theorem Sweeps.lt_length {e : Entry} (h : Sweeps words a (e :: entries)) : a < words.length := by
  cases h
  assumption

theorem Sweeps.eq_length (h : Sweeps words a []) : a = words.length := by
  cases h
  rfl

theorem Sweeps.le_address (h : Sweeps words a entries) : ∀ e ∈ entries, (a : Int) ≤ e.address := by
  induction h with
  | nil => exact List.forall_mem_nil _
  | @cons a content rest ha hcontent hrest ih =>
    refine List.forall_mem_cons.mpr ⟨Int.le_refl _, ?_⟩
    intro e he
    have := ih e he
    omega

/-! ### Tiles -/

/-- The address behind the words that a line shows. -/
def Entry.behind (e : Entry) : Int := e.address + (e.content.words.length : Nat)

theorem Sweeps.next (h : Sweeps words a entries) : ∀ k e e', entries[k]? = some e →
    entries[k + 1]? = some e' → e'.address = e.behind := by
  induction h with
  | nil =>
    intro k e e' he
    cases he
  | @cons a content rest ha hcontent hrest ih =>
    intro k e e' he he'
    cases k with
    | zero =>
      cases he
      cases rest with
      | nil => cases he'
      | cons e'' rest =>
        cases he'
        rw [hrest.address_eq, Entry.behind, hcontent.length_words]
        rfl
    | succ k => exact ih k e e' he he'

theorem Sweeps.last (h : Sweeps words a entries) (ha : a < words.length) :
    entries.getLast?.map Entry.behind = some (words.length : Int) := by
  induction h with
  | nil => omega
  | @cons a content rest ha hcontent hrest ih =>
    cases rest with
    | nil => simp [Entry.behind, hcontent.length_words, ← hrest.eq_length]
    | cons e rest => exact ih hrest.lt_length

/-- Each place is in one line. -/
theorem Sweeps.once (h : Sweeps words a entries) {b : Nat} (hab : a ≤ b) (hb : b < words.length) :
    ∃! e, e ∈ entries ∧ e.address ≤ b ∧ b < e.behind := by
  induction h with
  | nil => omega
  | @cons a content rest ha hcontent hrest ih =>
    have hbehind : (⟨a, content⟩ : Entry).behind = (a + content.width : Nat) := by
      simp [Entry.behind, hcontent.length_words]
    by_cases hin : b < a + content.width
    · -- the lines behind this one start behind the place
      refine ⟨⟨a, content⟩, ⟨List.mem_cons_self, ?_, ?_⟩, ?_⟩
      · exact Int.ofNat_le.mpr hab
      · rw [hbehind]
        exact Int.ofNat_lt.mpr hin
      · rintro e ⟨he, hle, -⟩
        rcases List.mem_cons.mp he with rfl | he
        · rfl
        · have := hrest.le_address e he
          omega
    · obtain ⟨e, ⟨he, hplace⟩, hunique⟩ := ih (by omega)
      refine ⟨e, ⟨List.mem_cons_of_mem _ he, hplace⟩, ?_⟩
      rintro e' ⟨he', hle, hlt⟩
      rcases List.mem_cons.mp he' with rfl | he'
      · rw [hbehind] at hlt
        omega
      · exact hunique e' ⟨he', hle, hlt⟩

/-- A line is shown by every listing that stops behind it. -/
theorem Lists.take (h : Lists words a content) (hstop : a + content.width ≤ stop) :
    Lists (words.take stop) a content := by
  have hpos := content.width_pos
  have hword : (words.take stop).getD a 0 = words.getD a 0 := getD_take (by omega)
  have hlength := List.length_take_le' stop words
  cases h with
  | @code op hop hfits =>
    rw [← operandsIn_take hstop]
    apply Lists.code
    · rw [hword, hop]
    · rw [List.length_take]
      exact Nat.le_min.mpr ⟨hstop, hfits⟩
  | cut hop hcut =>
    apply Lists.cut
    · rw [hword, hop]
    · exact Nat.lt_of_le_of_lt hlength hcut
  | unknown hword' hunknown => exact .unknown (hword.trans hword') hunknown

/-- **A listing can be cut at each line**: the lines in front of it are those of a listing that stops
there, and the others are those of a listing that starts there. -/
theorem Sweeps.exists_append (h : Sweeps words a entries) : ∀ e ∈ entries, ∃ (b : Nat)
    (front back : List Entry), e.address = b ∧ b ≤ words.length ∧ entries = front ++ back ∧
      Sweeps (words.take b) a front ∧ Sweeps words b back := by
  induction h with
  | nil => exact List.forall_mem_nil _
  | @cons a content rest ha hcontent hrest ih =>
    intro e he
    rcases List.mem_cons.mp he with rfl | he
    · have hnone : Sweeps (words.take a) (words.take a).length [] := .nil
      rw [List.length_take, Nat.min_eq_left (Nat.le_of_lt ha)] at hnone
      exact ⟨a, [], _, rfl, Nat.le_of_lt ha, rfl, hnone, .cons ha hcontent hrest⟩
    · obtain ⟨b, front, back, haddress, hb, rfl, hfront, hback⟩ := ih e he
      have hle := hrest.le_address e he
      have hlength : (words.take b).length = b := by simp [hb]
      have hpos := content.width_pos
      refine ⟨b, ⟨a, content⟩ :: front, back, haddress, hb, rfl, ?_, hback⟩
      exact .cons (by omega) (hcontent.take (by omega)) hfront

end Listing

end WordMachine
