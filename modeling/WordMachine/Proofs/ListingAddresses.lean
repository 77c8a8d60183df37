/-
  The addresses of a listing, wherever it starts.

  A listing may be asked to start at a negative address, and the words there are counted from the
  end of the list.  Its addresses go up through zero, so it shows the end of the list first and then
  goes on with its beginning.  `Walks` describes the lines of such a listing one after another, and
  `sweep_cases` says that they are the lines that are listed.

  `Orderly` is what a reader expects of a listing: its addresses are those of words and get greater
  from line to line, no operand is missing, and no word is shown twice.  `sweep_orderly_iff` says
  which listings are orderly, and what is left of these expectations in all others.
-/
import WordMachine.Proofs.Contents
import WordMachine.Proofs.ListingRanges

namespace WordMachine

namespace Listing

variable {words : List Int} {start stop address : Int} {content : Content} {entries : List Entry}

/-! ### Single lines -/

/-- The cases of what is shown at an address. -/
theorem contentAt?_cases (hlt : address < stop) (hstop : stop ≤ words.length)
    (h : contentAt? words.toArray stop address = some content) :
    -(words.length : Int) ≤ address ∧ (content = .data (wordOf words address) ∨
      ∃ op : Opcode, wordOf words address = op.code ∧ address + op.width ≤ stop ∧
        content = .code op ((wordsBetween words.toArray (address + 1)
          (address + op.width)).map .ofRaw)) := by
  unfold contentAt? at h
  rw [wordAt?_eq (by omega)] at h
  split at h
  · rename_i hle
    refine ⟨hle, ?_⟩
    rw [Option.map_some, Option.some.injEq] at h
    split at h
    · rename_i op hop
      split at h
      · exact .inl h.symm
      · exact .inr ⟨op, Opcode.ofCode?_eq_some_iff.mp hop, by omega, h.symm⟩
    · exact .inl h.symm
  · cases h

theorem contentAt?_eq_none (haddress : address < words.length)
    (h : contentAt? words.toArray stop address = none) : address < -(words.length : Int) := by
  unfold contentAt? at h
  rw [Option.map_eq_none_iff, wordAt?_eq haddress] at h
  split at h
  · cases h
  · omega

/-- A line does not reach behind the stop. -/
theorem contentAt?_fits (hlt : address < stop) (hstop : stop ≤ words.length)
    (h : contentAt? words.toArray stop address = some content) :
    address + content.width ≤ stop := by
  obtain ⟨-, rfl | ⟨op, -, hfits, rfl⟩⟩ := contentAt?_cases hlt hstop h
  · exact hlt
  · exact hfits

/-- The number of operands in a line: all of them, unless the line leads from the end of the list to
its beginning. -/
theorem length_operands_of_contentAt? {op : Opcode} {operands : List Operand} (hlt : address < stop)
    (hstop : stop ≤ words.length)
    (h : contentAt? words.toArray stop address = some (.code op operands)) :
    operands.length = if address + 1 < 0 ∧ 0 ≤ address + op.width then op.arity - words.length
      else op.arity := by
  obtain ⟨hle, hdata | ⟨op', -, hfits, hcode⟩⟩ := contentAt?_cases hlt hstop h
  · cases hdata
  · cases hcode
    have hwidth : op.width = 1 + op.arity := rfl
    rw [List.length_map, wordsBetween_eq (by omega) (by omega) (by omega), List.length_map,
      List.length_range, countBetween]
    split <;> omega

/-- A line shows words that follow each other, from its address on. -/
theorem words_of_contentAt? (hlt : address < stop) (hstop : stop ≤ words.length)
    (h : contentAt? words.toArray stop address = some content) : content.words =
      (List.range content.words.length).map fun k : Nat => wordOf words (address + k) := by
  obtain ⟨hle, rfl | ⟨op, hop, hfits, rfl⟩⟩ := contentAt?_cases hlt hstop h
  · simp [Content.words]
  · have hwidth : op.width = 1 + op.arity := rfl
    rw [Content.words, List.map_map, wordsBetween_eq (by omega) (by omega) (by omega), List.map_map]
    simp only [List.length_cons, List.length_map, List.length_range, List.range_succ_eq_map,
      List.map_cons, List.map_map, Nat.cast_zero, Int.add_zero, hop]
    congr 1
    apply List.map_congr_left
    intro k _
    simp only [Function.comp_apply, Operand.raw_ofRaw, Nat.cast_succ]
    congr 1
    omega

theorem length_words_le (hlt : address < stop) (hstop : stop ≤ words.length)
    (h : contentAt? words.toArray stop address = some content) :
    content.words.length ≤ content.width := by
  cases content with
  | data word => exact Nat.le_refl 1
  | code op operands =>
    have hlength := length_operands_of_contentAt? hlt hstop h
    have hwidth : op.width = 1 + op.arity := rfl
    simp only [Content.words, Content.width, List.length_cons, List.length_map]
    split at hlength <;> omega

/-! ### Lines from any address on -/

/-- `Walks words stop address entries` says that the entries are the lines of a listing from an
address up to `stop`, each of them starting where the line before it ends. -/
inductive Walks (words : List Int) (stop : Int) : Int → List Entry → Prop
  | nil {address : Int} (hle : stop ≤ address) : Walks words stop address []
  | cons {address : Int} {content : Content} {rest : List Entry} (hlt : address < stop)
    (hcontent : contentAt? words.toArray stop address = some content)
    (hrest : Walks words stop (address + content.width) rest) :
    Walks words stop address (⟨address, content⟩ :: rest)

/-- A listing fails where it starts or nowhere: from the first address that has a word on, all
addresses up to the end of the list have words. -/
theorem sweepFrom_cases (hstop : stop ≤ words.length) (address : Int) (done : Array Entry) :
    match sweepFrom words.toArray stop address done with
    | .ok all => ∃ rest, all.toList = done.toList ++ rest ∧ Walks words stop address rest
    | .error missing => missing = address ∧ address < stop ∧ address < -(words.length : Int) := by
  fun_induction sweepFrom words.toArray stop address done with
  | case1 address done hlt hnone => exact ⟨rfl, hlt, contentAt?_eq_none (by omega) hnone⟩
  | case2 address done hlt content hsome hpos ih =>
    have hle := (contentAt?_cases hlt hstop hsome).1
    split at ih
    · obtain ⟨rest, hall, hwalks⟩ := ih
      refine ⟨⟨address, content⟩ :: rest, ?_, .cons hlt hsome hwalks⟩
      rw [hall, Array.toList_push, List.append_assoc]
      rfl
    · omega
  | case3 address done hge => exact ⟨[], by simp, .nil (by omega)⟩

theorem Walks.sweepFrom (h : Walks words stop address entries) (done : Array Entry) :
    (sweepFrom words.toArray stop address done).map Array.toList =
      .ok (done.toList ++ entries) := by
  induction h generalizing done with
  | nil hle =>
    rw [Listing.sweepFrom, if_neg (by omega), List.append_nil]
    rfl
  | @cons address content rest hlt hcontent hrest ih =>
    have hall := ih (done.push ⟨address, content⟩)
    rw [Array.toList_push, List.append_assoc] at hall
    rw [Listing.sweepFrom, if_pos hlt, hcontent]
    exact hall

theorem stopAddress_le (size : Nat) (stop : Option Int) : stopAddress size stop ≤ size := by
  cases stop with
  | none => exact Int.le_refl _
  | some stop => exact Int.min_le_right _ _

/-- **What is listed** are the lines from the start on. -/
theorem sweep_cases (words : List Int) (start : Int) (stop : Option Int) :
    match sweep words start stop with
    | .ok entries => Walks words (stopAddress words.length stop) start entries
    | .error missing => missing = start ∧ start < stopAddress words.length stop ∧
      start < -(words.length : Int) := by
  have hcases := sweepFrom_cases (stopAddress_le words.length stop) start #[]
  unfold sweep
  cases hall : sweepFrom words.toArray (stopAddress words.length stop) start #[] with
  | error missing =>
    rw [hall] at hcases
    exact hcases
  | ok all =>
    rw [hall] at hcases
    obtain ⟨rest, hrest, hwalks⟩ := hcases
    rw [List.nil_append] at hrest
    show Walks words _ start all.toList
    rwa [hrest]

theorem Walks.sweep {stop : Option Int}
    (h : Walks words (stopAddress words.length stop) start entries) :
    sweep words start stop = .ok entries :=
  h.sweepFrom #[]

namespace Walks

/-- Nothing is listed in front of the words that negative addresses name. -/
theorem starts (h : Walks words stop address entries) (hstop : stop ≤ words.length) :
    stop ≤ address ∨ -(words.length : Int) ≤ address := by
  cases h with
  | nil hle => exact .inl hle
  | cons hlt hcontent hrest => exact .inr (contentAt?_cases hlt hstop hcontent).1

theorem le_address (h : Walks words stop address entries) : ∀ e ∈ entries, address ≤ e.address := by
  induction h with
  | nil hle => exact List.forall_mem_nil _
  | cons hlt hcontent hrest ih =>
    refine List.forall_mem_cons.mpr ⟨Int.le_refl _, ?_⟩
    intro e he
    have := ih e he
    omega

theorem lines (h : Walks words stop address entries) : ∀ e ∈ entries,
    e.address < stop ∧ contentAt? words.toArray stop e.address = some e.content := by
  induction h with
  | nil hle => exact List.forall_mem_nil _
  | cons hlt hcontent hrest ih => exact List.forall_mem_cons.mpr ⟨⟨hlt, hcontent⟩, ih⟩

/-- A line ends in front of all lines behind it. -/
theorem apart (h : Walks words stop address entries) :
    entries.Pairwise fun e e' : Entry => e.address + e.content.width ≤ e'.address := by
  induction h with
  | nil hle => exact .nil
  | cons hlt hcontent hrest ih => exact .cons hrest.le_address ih

theorem increasing (h : Walks words stop address entries) :
    entries.Pairwise fun e e' => e.address < e'.address := by
  apply h.apart.imp
  intro e e' hapart
  have := e.content.width_pos
  omega

/-- A listing that starts at a negative address goes on with the listing from one of the first four
addresses of the list. -/
theorem exists_append (h : Walks words stop address entries) (haddress : address < 0) :
    ∃ (b : Nat) (front back : List Entry), b ≤ 3 ∧ entries = front ++ back ∧
      (∀ e ∈ front, e.address < 0) ∧ Walks words stop b back := by
  induction h with
  | nil hle => exact ⟨0, [], [], by omega, rfl, List.forall_mem_nil _, .nil (by omega)⟩
  | @cons address content rest hlt hcontent hrest ih =>
    have hwidth : content.width ≤ 4 := by
      cases content with
      | data word => exact Nat.le_of_ble_eq_true rfl
      | code op operands => exact op.width_le
    by_cases hnext : address + content.width < 0
    · obtain ⟨b, front, back, hb, rfl, hfront, hback⟩ := ih hnext
      exact ⟨b, ⟨address, content⟩ :: front, back, hb, rfl,
        List.forall_mem_cons.mpr ⟨haddress, hfront⟩, hback⟩
    · obtain ⟨b, hb⟩ := Int.eq_ofNat_of_zero_le (Int.not_lt.mp hnext)
      rw [hb] at hrest
      exact ⟨b, [⟨address, content⟩], rest, by omega, rfl,
        List.forall_mem_cons.mpr ⟨haddress, List.forall_mem_nil _⟩, hrest⟩

end Walks

/-! ### Shown words -/

/-- The addresses of the words that a line shows: as many of them as it has words, from its own
address on. -/
def Entry.addresses (e : Entry) : List Int :=
  (List.range e.content.words.length).map fun k : Nat => e.address + k

/-- The places of the words that a line shows, in a list of `size` words. -/
def Entry.places (size : Nat) (e : Entry) : List Nat :=
  e.addresses.map fun a => (place size a).toNat

/-- The words that a line shows are those at its places. -/
theorem Walks.shown (h : Walks words stop address entries) (hstop : stop ≤ words.length) :
    ∀ e ∈ entries, (e.places words.length).map (fun p => words[p]?) = e.content.words.map some := by
  intro e he
  obtain ⟨hlt, hcontent⟩ := h.lines e he
  have hle := (contentAt?_cases hlt hstop hcontent).1
  have hfits := contentAt?_fits hlt hstop hcontent
  have hwords := length_words_le hlt hstop hcontent
  conv_rhs => rw [words_of_contentAt? hlt hstop hcontent]
  rw [Entry.places, Entry.addresses, List.map_map, List.map_map, List.map_map]
  apply List.map_congr_left
  intro k hk
  rw [List.mem_range] at hk
  show words[(place words.length (e.address + k)).toNat]? = some (wordOf words (e.address + k))
  exact getElem?_place (by omega) (by omega)

theorem Walks.mem_addresses (h : Walks words stop address entries) (hstop : stop ≤ words.length) :
    ∀ a ∈ entries.flatMap Entry.addresses, address ≤ a ∧ a < stop := by
  intro a ha
  obtain ⟨e, he, ha⟩ := List.mem_flatMap.mp ha
  obtain ⟨k, hk, rfl⟩ := List.mem_map.mp ha
  rw [List.mem_range] at hk
  obtain ⟨hlt, hcontent⟩ := h.lines e he
  have hle := h.le_address e he
  have hfits := contentAt?_fits hlt hstop hcontent
  have hwords := length_words_le hlt hstop hcontent
  omega

/-- No address is shown twice. -/
theorem Walks.addresses_increasing (h : Walks words stop address entries)
    (hstop : stop ≤ words.length) : (entries.flatMap Entry.addresses).Pairwise (· < ·) := by
  rw [List.pairwise_flatMap]
  constructor
  · intro e he
    show ((List.range _).map _).Pairwise _
    rw [List.pairwise_map]
    apply List.pairwise_lt_range.imp
    intro k k' hlt
    omega
  · apply h.apart.imp_of_mem
    intro e e' he he' hapart a ha b hb
    obtain ⟨k, hk, rfl⟩ := List.mem_map.mp ha
    obtain ⟨k', hk', rfl⟩ := List.mem_map.mp hb
    rw [List.mem_range] at hk
    obtain ⟨hlt, hcontent⟩ := h.lines e he
    have hwords := length_words_le hlt hstop hcontent
    omega

/-- **No word is shown twice** by a listing that does not get around to the word it started at. -/
theorem Walks.nodup_places (h : Walks words stop start entries) (hstop : stop ≤ words.length)
    (hround : stop ≤ start + words.length) :
    (entries.flatMap (Entry.places words.length)).Nodup := by
  have hstart := h.starts hstop
  have hplaces : entries.flatMap (Entry.places words.length) =
      (entries.flatMap Entry.addresses).map fun a => (place words.length a).toNat := by
    rw [List.map_flatMap]
    rfl
  rw [hplaces]
  apply List.Nodup.map_on
  · intro a ha b hb hab
    have hina := h.mem_addresses hstop a ha
    have hinb := h.mem_addresses hstop b hb
    unfold place at hab
    split at hab <;> split at hab <;> omega
  · exact (h.addresses_increasing hstop).imp fun hlt => Int.ne_of_lt hlt

/-! ### Orderly listings -/

/-- What is expected of a listing of `size` words. -/
structure Orderly (size : Nat) (entries : List Entry) : Prop where
  /-- The addresses get greater from line to line. -/
  increasing : entries.Pairwise fun e e' => e.address < e'.address
  /-- The addresses are those of words. -/
  inside : ∀ e ∈ entries, 0 ≤ e.address ∧ e.address < size
  /-- Instructions are shown with all of their operands. -/
  complete : ∀ e ∈ entries, ∀ op operands, e.content = .code op operands →
    operands.length = op.arity
  /-- No word is shown twice. -/
  once : (entries.flatMap (Entry.places size)).Nodup

/-- What every listing of `words` from `start` up to `stop` does. -/
structure Advances (words : List Int) (start stop : Int) (entries : List Entry) : Prop where
  /-- The addresses get greater from line to line. -/
  increasing : entries.Pairwise fun e e' => e.address < e'.address
  /-- They lie between the start and the stop. -/
  between : ∀ e ∈ entries, start ≤ e.address ∧ e.address < stop
  /-- The first of them is the start. -/
  first : start < stop → entries.head?.map Entry.address = some start
  /-- The words that are shown are those at the places. -/
  shown : ∀ e ∈ entries, (e.places words.length).map (fun p => words[p]?) = e.content.words.map some
  /-- Operands are missing exactly where a line leads from the end of the list to its beginning:
  as many as the list has words, or all of them. -/
  operands : ∀ e ∈ entries, ∀ op operands, e.content = .code op operands → operands.length =
    if e.address + 1 < 0 ∧ 0 ≤ e.address + op.width then op.arity - words.length else op.arity
  /-- No word is shown twice unless the listing gets around to the word it started at. -/
  once : stop ≤ start + words.length → (entries.flatMap (Entry.places words.length)).Nodup

theorem Walks.advances (h : Walks words stop start entries) (hstop : stop ≤ words.length) :
    Advances words start stop entries where
  increasing := h.increasing
  between e he := ⟨h.le_address e he, (h.lines e he).1⟩
  first hlt := by
    cases h with
    | nil hle => omega
    | cons hlt hcontent hrest => rfl
  shown := h.shown hstop
  operands e he op operands hcode := by
    obtain ⟨hlt, hcontent⟩ := h.lines e he
    rw [hcode] at hcontent
    exact length_operands_of_contentAt? hlt hstop hcontent
  once := h.nodup_places hstop

/-- A listing is orderly when it does not start in front of the list, or when nothing is listed. -/
theorem Advances.orderly_iff (h : Advances words start stop entries) (hstop : stop ≤ words.length) :
    Orderly words.length entries ↔ 0 ≤ start ∨ stop ≤ start := by
  constructor
  · intro horderly
    by_cases hlt : start < stop
    · -- the first line is at the start
      cases entries with
      | nil => cases h.first hlt
      | cons e rest =>
        have hfirst : e.address = start := Option.some.inj (h.first hlt)
        have hinside := horderly.inside e List.mem_cons_self
        exact .inl (by omega)
    · exact .inr (by omega)
  · intro hstart
    have hinside : ∀ e ∈ entries, 0 ≤ e.address ∧ e.address < words.length := by
      intro e he
      have := h.between e he
      omega
    refine ⟨h.increasing, hinside, ?_, h.once (by omega)⟩
    intro e he op operands hcode
    have := hinside e he
    rw [h.operands e he op operands hcode, if_neg (by omega)]

/-- **Which listings are orderly.**  A listing fails exactly when it starts in front of all words
that a negative address can name, and it fails with that address.  In every other listing the
addresses get greater from the start on and stay below the stop.  But it is orderly only if it does
not start at a negative address, or if it lists nothing: a listing from a negative address goes on
with the orderly listing from one of the first four addresses, whatever it has shown before. -/
theorem sweep_orderly_iff (words : List Int) (start : Int) (stop : Option Int) :
    match sweep words start stop with
    | .error missing => missing = start ∧ start < stopAddress words.length stop ∧
        start < -(words.length : Int)
    | .ok entries => (stopAddress words.length stop ≤ start ∨ -(words.length : Int) ≤ start) ∧
        Advances words start (stopAddress words.length stop) entries ∧
        (Orderly words.length entries ↔ 0 ≤ start ∨ stopAddress words.length stop ≤ start) ∧
        (start < 0 → ∃ (b : Nat) (front back : List Entry), b ≤ 3 ∧ entries = front ++ back ∧
          (∀ e ∈ front, e.address < 0) ∧ sweep words b stop = .ok back ∧
          Orderly words.length back) := by
  have hstop := stopAddress_le words.length stop
  have hcases := sweep_cases words start stop
  cases hsweep : sweep words start stop with
  | error missing =>
    rw [hsweep] at hcases
    exact hcases
  | ok entries =>
    rw [hsweep] at hcases
    have hwalks : Walks words (stopAddress words.length stop) start entries := hcases
    have hadvances := hwalks.advances hstop
    refine ⟨hwalks.starts hstop, hadvances, hadvances.orderly_iff hstop, fun hneg => ?_⟩
    obtain ⟨b, front, back, hb, happend, hfront, hback⟩ := hwalks.exists_append hneg
    exact ⟨b, front, back, hb, happend, hfront, hback.sweep,
      ((hback.advances hstop).orderly_iff hstop).mpr (.inl (Int.natCast_nonneg b))⟩

/-- From two words in front of the end on: an output without its operand, and then all words, the
output among them once more. -/
theorem not_orderly_of_negative_start : ∃ entries, sweep [19, 65, 21, 19, 66] (-2) = .ok entries ∧
    entries.map Entry.text = ["-0002: out", "00000: out 65", "00002: noop", "00003: out 66"] ∧
    entries.flatMap (Entry.places 5) = [3, 0, 1, 2, 3, 4] ∧ ¬ Orderly 5 entries := by
  refine ⟨[⟨-2, .code .output []⟩, ⟨0, .code .output [.literal 65]⟩, ⟨2, .code .noop []⟩,
    ⟨3, .code .output [.literal 66]⟩], ?_, rfl, rfl, fun horderly => ?_⟩
  · simp +decide [sweep, sweepFrom, stopAddress, contentAt?, wordAt?, wordsBetween, place,
      Content.width, Opcode.ofCode?, Opcode.all, Opcode.width, Opcode.arity, Except.map]
  · exact absurd (horderly.inside _ List.mem_cons_self).1 (by decide)

end Listing

end WordMachine
