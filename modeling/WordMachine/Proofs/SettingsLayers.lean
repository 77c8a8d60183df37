/-
  Layers of settings.

  The table of a configuration and the updates behind it are layers of entries, and a null value in
  a layer gives nothing.  `lastGiven?` looks a setting up in a sequence of entries from the back,
  and `merge` makes one layer out of several.  Whatever the layers are, and with the refused updates
  among them left out, each setting has the value that it was given last, and the layers do what
  their merge does at once (`layers_win_in_order`).
-/
import Mathlib.Data.List.Basic
import WordMachine.Settings

namespace WordMachine

/-- Does a value give something to a setting?  Only the null value does not. -/
def Value.isGiven : Value → Bool
  | null => false
  | _ => true

namespace Settings

/-- The entries of a table or of an update, in order. -/
abbrev Layer := List (String × Value)

variable {s s' : Settings} {key : Key} {name : String} {layer : Layer}

/-! ### Names -/

/-- A name is **known** when a setting has it. -/
def Known (name : String) : Prop := ∃ key : Key, key.name = name

theorem Key.ofName?_eq_some_iff : Key.ofName? name = some key ↔ key.name = name := by
  constructor
  · intro h
    simpa using List.find?_some h
  · rintro rfl
    exact Key.ofName?_name key

theorem Key.isNone_ofName?_iff : (Key.ofName? name).isNone = true ↔ ¬ Known name := by
  rw [Option.isNone_iff_eq_none, Option.eq_none_iff_forall_ne_some, Known, not_exists]
  simp only [ne_eq, Key.ofName?_eq_some_iff]

instance : DecidablePred Known := fun name =>
  decidable_of_iff (¬ (Key.ofName? name).isNone = true) (by rw [Key.isNone_ofName?_iff, not_not])

/-- All names in a layer are known. -/
def AllKnown (layer : Layer) : Prop := ∀ entry ∈ layer, Known entry.1

instance : DecidablePred AllKnown := fun layer =>
  inferInstanceAs (Decidable (∀ entry ∈ layer, Known entry.1))

/-- `FirstUnknown layer name` says that `name` is the first name in the layer that is not known. -/
def FirstUnknown (layer : Layer) (name : String) : Prop :=
  ∃ front value back, layer = front ++ (name, value) :: back ∧ AllKnown front ∧ ¬ Known name

theorem firstUnknown?_eq_some_iff : firstUnknown? layer = some name ↔ FirstUnknown layer name := by
  unfold firstUnknown? FirstUnknown
  rw [Option.map_eq_some_iff]
  constructor
  · rintro ⟨⟨_, value⟩, hfind, rfl⟩
    obtain ⟨hunknown, front, back, happend, hfront⟩ := List.find?_eq_some_iff_append.mp hfind
    refine ⟨front, value, back, happend, fun entry hentry => ?_, Key.isNone_ofName?_iff.mp hunknown⟩
    have hknown := hfront entry hentry
    rw [Bool.not_eq_true', ← Bool.not_eq_true, Key.isNone_ofName?_iff] at hknown
    exact not_not.mp hknown
  · rintro ⟨front, value, back, happend, hfront, hunknown⟩
    refine ⟨(name, value), List.find?_eq_some_iff_append.mpr
      ⟨Key.isNone_ofName?_iff.mpr hunknown, front, back, happend, fun entry hentry => ?_⟩, rfl⟩
    rw [Bool.not_eq_true', ← Bool.not_eq_true, Key.isNone_ofName?_iff]
    exact not_not.mpr (hfront entry hentry)

theorem firstUnknown?_eq_none_iff : firstUnknown? layer = none ↔ AllKnown layer := by
  unfold firstUnknown?
  rw [Option.map_eq_none_iff, List.find?_eq_none]
  simp only [Key.isNone_ofName?_iff, not_not]
  rfl

/-- There is a first unknown name where there is an unknown name. -/
theorem exists_firstUnknown_iff : (∃ name, FirstUnknown layer name) ↔ ¬ AllKnown layer := by
  rw [← firstUnknown?_eq_none_iff]
  simp only [← firstUnknown?_eq_some_iff]
  cases firstUnknown? layer <;> simp

/-! ### Single layers -/

theorem update_eq_ok (h : AllKnown layer) : s.update layer = .ok (s.giveAll (layerOf layer)) := by
  unfold update
  rw [firstUnknown?_eq_none_iff.mpr h]

theorem update_eq_error_iff {e : SettingsError} :
    s.update layer = .error e ↔ ∃ name, e = .unknown name ∧ FirstUnknown layer name := by
  unfold update
  cases hfirst : firstUnknown? layer with
  | none =>
    have hnone : ¬ ∃ name, FirstUnknown layer name := by
      rw [exists_firstUnknown_iff, not_not, ← firstUnknown?_eq_none_iff, hfirst]
    simp only [reduceCtorEq, false_iff]
    rintro ⟨name, -, hname⟩
    exact hnone ⟨name, hname⟩
  | some first =>
    simp only [← firstUnknown?_eq_some_iff, hfirst, Option.some.injEq, Except.error.injEq]
    constructor
    · rintro rfl
      exact ⟨first, rfl, rfl⟩
    · rintro ⟨name, rfl, rfl⟩
      rfl

theorem exists_update_error_iff : (∃ e, s.update layer = .error e) ↔ ¬ AllKnown layer := by
  rw [← exists_firstUnknown_iff]
  simp only [update_eq_error_iff]
  constructor
  · rintro ⟨e, name, -, hname⟩
    exact ⟨name, hname⟩
  · rintro ⟨name, hname⟩
    exact ⟨_, name, rfl, hname⟩

/-- The last value that a sequence of entries gives to a setting. -/
def lastGiven? (key : Key) (entries : Layer) : Option Value :=
  ((entries.filter fun entry => entry.1 = key.name ∧ entry.2.isGiven).map (·.2)).getLast?

theorem lastGiven?_append (key : Key) (front back : Layer) :
    lastGiven? key (front ++ back) = (lastGiven? key back).or (lastGiven? key front) := by
  unfold lastGiven?
  rw [List.filter_append, List.map_append, List.getLast?_append]

/-- The first entry counts if there is no later one. -/
theorem lastGiven?_cons (key : Key) (name : String) (value : Value) (rest : Layer) :
    lastGiven? key ((name, value) :: rest) = (lastGiven? key rest).or
      (if name = key.name ∧ value.isGiven then some value else none) := by
  have hsingle : lastGiven? key [(name, value)] =
      if name = key.name ∧ value.isGiven then some value else none := by
    unfold lastGiven?
    split <;> simp_all
  rw [← List.singleton_append, lastGiven?_append, hsingle]

theorem get_give (s : Settings) (given key : Key) (value : Value) :
    (s.give given value).get key = if given = key ∧ value.isGiven then value else s.get key := by
  by_cases hgiven : value.isGiven
  · have hput : s.give given value = s.put given value := by
      cases value with
      | null => cases hgiven
      | _ => rfl
    rw [hput]
    by_cases hkey : given = key
    · rw [if_pos ⟨hkey, hgiven⟩, hkey, get_put_self]
    · rw [if_neg fun h => hkey h.1, get_put_of_ne s value hkey]
  · have hkeep : s.give given value = s := by
      cases value with
      | null => rfl
      | _ => exact absurd rfl hgiven
    rw [hkeep, if_neg fun h => hgiven h.2]

/-- **The last value wins** in a layer. -/
theorem get_giveAll_layerOf (s : Settings) (layer : Layer) (key : Key) :
    (s.giveAll (layerOf layer)).get key = (lastGiven? key layer).getD (s.get key) := by
  induction layer generalizing s with
  | nil => rfl
  | cons entry rest ih =>
    obtain ⟨name, value⟩ := entry
    rw [lastGiven?_cons]
    cases hname : Key.ofName? name with
    | none =>
      have hlayer : layerOf ((name, value) :: rest) = layerOf rest := by simp [layerOf, hname]
      have hne : ¬ (name = key.name ∧ value.isGiven) := by
        rintro ⟨rfl, -⟩
        rw [Key.ofName?_name] at hname
        cases hname
      rw [hlayer, ih, if_neg hne, Option.or_none]
    | some given =>
      have hlayer : layerOf ((name, value) :: rest) = (given, value) :: layerOf rest := by
        simp [layerOf, hname]
      have hkey : name = key.name ↔ given = key := by
        rw [eq_comm, ← Key.ofName?_eq_some_iff, hname, Option.some.injEq]
      rw [hlayer]
      show ((s.give given value).giveAll (layerOf rest)).get key = _
      rw [ih, get_give]
      simp only [hkey]
      cases lastGiven? key rest with
      | some last => rfl
      | none => split <;> rfl

/-- Settings are what their values are. -/
theorem eq_of_get (h : ∀ key, s.get key = s'.get key) : s = s' := by
  obtain ⟨trace, dump, maxSteps, timeLimit, textImage⟩ := s
  have htrace := h .trace
  have hdump := h .dump
  have hmaxSteps := h .maxSteps
  have htimeLimit := h .timeLimit
  have htextImage := h .textImage
  simp only [get] at htrace hdump hmaxSteps htimeLimit htextImage
  subst htrace hdump hmaxSteps htimeLimit htextImage
  rfl

/-! ### Sequences of updates -/

/-- The settings after an update, and why the update was refused if it was. -/
def revise (s : Settings) (layer : Layer) : Settings × Option SettingsError :=
  match s.update layer with
  | .ok s' => (s', none)
  | .error e => (s, some e)

/-- The settings after a sequence of updates, whether they were refused or not. -/
def reviseAll (s : Settings) (updates : List Layer) : Settings :=
  updates.foldl (fun s layer => (s.revise layer).1) s

/-- The updates that are not refused. -/
def accepted (updates : List Layer) : List Layer := updates.filter AllKnown

theorem revise_of_allKnown (s : Settings) (h : AllKnown layer) :
    s.revise layer = (s.giveAll (layerOf layer), none) := by
  unfold revise
  rw [update_eq_ok h]

/-- A refused update changes nothing. -/
theorem revise_of_firstUnknown (s : Settings) (h : FirstUnknown layer name) :
    s.revise layer = (s, some (.unknown name)) := by
  unfold revise
  rw [update_eq_error_iff.mpr ⟨name, rfl, h⟩]

theorem get_reviseAll (s : Settings) (updates : List Layer) (key : Key) :
    (s.reviseAll updates).get key =
      (lastGiven? key (accepted updates).flatten).getD (s.get key) := by
  induction updates generalizing s with
  | nil => rfl
  | cons layer rest ih =>
    show ((s.revise layer).1.reviseAll rest).get key = _
    rw [ih]
    by_cases hknown : AllKnown layer
    · have haccepted : accepted (layer :: rest) = layer :: accepted rest := by
        simp [accepted, hknown]
      rw [haccepted, revise_of_allKnown s hknown, List.flatten_cons, lastGiven?_append,
        get_giveAll_layerOf]
      cases lastGiven? key (accepted rest).flatten <;> rfl
    · obtain ⟨name, hname⟩ := exists_firstUnknown_iff.mpr hknown
      have haccepted : accepted (layer :: rest) = accepted rest := by
        simp [accepted, hknown]
      rw [haccepted, revise_of_firstUnknown s hname]

/-! ### Merged layers -/

/-- The entries of a layer that give something. -/
def given (layer : Layer) : Layer := layer.filter (·.2.isGiven)

/-- Two layers in one.  Of the older layer the names stay to which the newer one gives nothing. -/
def overlay (older newer : Layer) : Layer :=
  (older.filter fun entry => entry.1 ∉ (given newer).map (·.1)) ++ given newer

/-- The layers in one, without the null values in them. -/
def merge (layers : List Layer) : Layer := layers.foldl overlay []

theorem lastGiven?_given (key : Key) (layer : Layer) :
    lastGiven? key (given layer) = lastGiven? key layer := by
  unfold lastGiven? given
  rw [List.filter_filter]
  congr 3
  funext entry
  cases entry.2.isGiven <;> simp

/-- The newer layer wins. -/
theorem lastGiven?_overlay (key : Key) (older newer : Layer) :
    lastGiven? key (overlay older newer) =
      (lastGiven? key newer).or (lastGiven? key older) := by
  rw [overlay, lastGiven?_append, lastGiven?_given]
  cases hlast : lastGiven? key newer with
  | some value => rfl
  | none =>
    -- the newer layer gives nothing to the setting, so no entry about it is filtered out
    have hname : key.name ∉ (given newer).map (·.1) := by
      intro hmem
      obtain ⟨entry, hentry, heq⟩ := List.mem_map.mp hmem
      obtain ⟨hnewer, hgiven⟩ := List.mem_filter.mp hentry
      unfold lastGiven? at hlast
      rw [List.getLast?_eq_none_iff, List.map_eq_nil_iff, List.filter_eq_nil_iff] at hlast
      exact hlast entry hnewer (decide_eq_true ⟨heq, hgiven⟩)
    rw [Option.none_or, Option.none_or]
    unfold lastGiven?
    rw [List.filter_filter]
    congr 3
    funext entry
    by_cases heq : entry.1 = key.name
    · simp [heq, hname]
    · simp [heq]

theorem lastGiven?_foldl_overlay (key : Key) (layers : List Layer) (merged : Layer) :
    lastGiven? key (layers.foldl overlay merged) = lastGiven? key (merged ++ layers.flatten) := by
  induction layers generalizing merged with
  | nil => rw [List.foldl_nil, List.flatten_nil, List.append_nil]
  | cons layer rest ih =>
    rw [List.foldl_cons, ih, List.flatten_cons, lastGiven?_append, lastGiven?_overlay,
      ← List.append_assoc, lastGiven?_append key (merged ++ layer), lastGiven?_append key merged]

theorem lastGiven?_merge (key : Key) (layers : List Layer) :
    lastGiven? key (merge layers) = lastGiven? key layers.flatten :=
  lastGiven?_foldl_overlay key layers []

theorem allKnown_merge {layers : List Layer} (h : ∀ layer ∈ layers, AllKnown layer) :
    AllKnown (merge layers) := by
  unfold merge
  apply List.foldlRecOn
  · exact List.forall_mem_nil _
  · intro merged hmerged layer hlayer entry hentry
    rcases List.mem_append.mp hentry with hentry | hentry
    · exact hmerged entry (List.mem_filter.mp hentry).1
    · exact h layer hlayer entry (List.mem_filter.mp hentry).1

/-- The layers of tables make a table: no name is in it twice. -/
theorem nodup_merge {layers : List Layer} (h : ∀ layer ∈ layers, (layer.map (·.1)).Nodup) :
    ((merge layers).map (·.1)).Nodup := by
  unfold merge
  apply List.foldlRecOn (motive := fun merged : Layer => (merged.map (·.1)).Nodup)
  · exact List.nodup_nil
  · intro merged hmerged layer hlayer
    unfold overlay
    rw [List.map_append, List.nodup_append]
    refine ⟨hmerged.sublist (List.filter_sublist.map _),
      (h layer hlayer).sublist (List.filter_sublist.map _), ?_⟩
    intro name hname other hother heq
    obtain ⟨entry, hentry, rfl⟩ := List.mem_map.mp hname
    have hnot := of_decide_eq_true (List.mem_filter.mp hentry).2
    exact hnot (heq ▸ hother)

/-! ### Configurations -/

/-- `SectionIs configuration layer` says that the section with the settings is a table with the
entries `layer`, or that it is missing and there are no entries. -/
def SectionIs (configuration layer : Layer) : Prop :=
  configuration.lookup sectionName = some (.table layer) ∨
    configuration.lookup sectionName = none ∧ layer = []

theorem SectionIs.ofConfiguration {configuration : Layer} (h : SectionIs configuration layer) :
    ofConfiguration configuration = default.update layer := by
  unfold Settings.ofConfiguration
  rcases h with h | ⟨h, rfl⟩
  · rw [h]
  · rw [h]
    rfl

/-- **Settings win in the order in which they are given.**  A configuration whose section is a table
or missing is refused exactly when there is an unknown name in the table, and the first such name is
the reason.  Otherwise it gives settings, and after any updates each of them has the last value that
the table and the updates that were not refused have given to it, or else its default; the same
settings are made by one update with all of these layers merged, which is a table if the layers are.
An update is refused exactly when there is an unknown name in it, and then it changes nothing. -/
theorem layers_win_in_order {configuration layer : Layer} (h : SectionIs configuration layer)
    (updates : List Layer) :
    (((∃ e, ofConfiguration configuration = .error e) ↔ ∃ entry ∈ layer, ¬ Known entry.1) ∧
      ∀ e, ofConfiguration configuration = .error e ↔
        ∃ name, e = .unknown name ∧ FirstUnknown layer name) ∧
    (AllKnown layer → ∃ s, ofConfiguration configuration = .ok s ∧
      (∀ key, (s.reviseAll updates).get key =
        (lastGiven? key (layer :: accepted updates).flatten).getD (default.get key)) ∧
      default.update (merge (layer :: accepted updates)) = .ok (s.reviseAll updates) ∧
      ((∀ table ∈ layer :: accepted updates, (table.map (·.1)).Nodup) →
        ((merge (layer :: accepted updates)).map (·.1)).Nodup)) ∧
    ∀ (s : Settings) (update : Layer),
      if AllKnown update then (s.revise update).2 = none
      else ∃ name, FirstUnknown update name ∧ s.revise update = (s, some (.unknown name)) := by
  rw [h.ofConfiguration]
  refine ⟨⟨?_, fun e => update_eq_error_iff⟩, fun hknown => ?_, fun s update => ?_⟩
  · rw [exists_update_error_iff]
    simp only [AllKnown, not_forall, exists_prop]
  · have hlayers : ∀ layer' ∈ layer :: accepted updates, AllKnown layer' := by
      refine List.forall_mem_cons.mpr ⟨hknown, fun update hupdate => ?_⟩
      exact of_decide_eq_true (List.mem_filter.mp hupdate).2
    have hget : ∀ key, ((default.giveAll (layerOf layer)).reviseAll updates).get key =
        (lastGiven? key (layer :: accepted updates).flatten).getD (default.get key) := by
      intro key
      rw [get_reviseAll, get_giveAll_layerOf, List.flatten_cons, lastGiven?_append]
      cases lastGiven? key (accepted updates).flatten <;> rfl
    refine ⟨_, update_eq_ok hknown, hget, ?_, nodup_merge⟩
    rw [update_eq_ok (allKnown_merge hlayers), Except.ok.injEq]
    apply eq_of_get
    intro key
    rw [get_giveAll_layerOf, lastGiven?_merge, hget]
  · split
    · rename_i hknown
      rw [revise_of_allKnown s hknown]
    · rename_i hunknown
      obtain ⟨name, hname⟩ := exists_firstUnknown_iff.mpr hunknown
      exact ⟨name, hname, revise_of_firstUnknown s hname⟩

/-- Null values give nothing, zero and false do, and a refused update is as if it had not been. -/
theorem layers_win_in_order_of_refused_update :
    SectionIs [("synvm", .table [("trace", .truth true), ("max_steps", .integer 10)])]
      [("trace", .truth true), ("max_steps", .integer 10)] ∧
    AllKnown [("trace", .truth true), ("max_steps", .integer 10)] ∧
    ∃ s, ofConfiguration [("synvm", .table [("trace", .truth true), ("max_steps", .integer 10)])] =
        .ok s ∧
      s.reviseAll [[("trace", .null), ("dump", .integer 0)],
          [("trace", .truth false), ("turbo", .truth true)], [("max_steps", .truth false)]] =
        ⟨.truth true, .integer 0, .truth false, .null, .null⟩ := by
  have hsection : SectionIs
      [("synvm", .table [("trace", .truth true), ("max_steps", .integer 10)])]
      [("trace", .truth true), ("max_steps", .integer 10)] := .inl rfl
  have hknown : AllKnown [("trace", .truth true), ("max_steps", .integer 10)] := by decide
  obtain ⟨-, hsettings, -⟩ := layers_win_in_order hsection
    [[("trace", .null), ("dump", .integer 0)],
      [("trace", .truth false), ("turbo", .truth true)], [("max_steps", .truth false)]]
  obtain ⟨s, hs, -, hmerge, -⟩ := hsettings hknown
  exact ⟨hsection, hknown, s, hs, (Except.ok.inj hmerge).symm⟩

end Settings

end WordMachine
