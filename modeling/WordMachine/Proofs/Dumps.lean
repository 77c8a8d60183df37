/-
  What a dump tells.

  The lines of a dump have fields with blanks between them: more than one blank where a number is
  shorter than its column.  Nothing depends on how many there are, so the fields are read off a line
  piece by piece (`fields_append`, `fields_intercalate`), and each number of a machine is a field of
  its own or follows a name in one.  So the lines tell all that a dump shows
  (`Machine.Snapshot.lines_eq_iff`), and two machines whose dumps are the same do not differ in it
  (`Monitor.dumps_eq_iff`).
-/
import WordMachine.Proofs.ListingText

namespace WordMachine

/-! ### Fields -/

/-- The fields of a text: what stands between its blanks. -/
def fields (text : List Char) : List (List Char) := (text.splitOn ' ').filter (· ≠ [])

/-- **A blank ends a field**, if there is one in front of it. -/
theorem fields_append (text rest : List Char) :
    fields (text ++ ' ' :: rest) = fields text ++ fields rest := by
  unfold fields
  rw [List.splitOn_append_cons_self, List.filter_append]

/-- Blanks in front of a text do not count. -/
theorem fields_replicate_append (n : Nat) (text : List Char) :
    fields (List.replicate n ' ' ++ text) = fields text := by
  induction n with
  | zero => rfl
  | succ n ih =>
    rw [← ih]
    exact fields_append [] _

/-- A text without blanks is one field. -/
theorem fields_of_not_mem {text : List Char} (h : ' ' ∉ text) (hne : text ≠ []) :
    fields text = [text] := by
  unfold fields
  rw [List.splitOn_eq_singleton h]
  simp [hne]

/-- **The fields of texts with blanks between them** are those of each text, in order. -/
theorem fields_intercalate (n : Nat) (texts : List (List Char)) :
    fields ((List.replicate (n + 1) ' ').intercalate texts) = texts.flatMap fields := by
  induction texts with
  | nil => rfl
  | cons text texts ih =>
    cases texts with
    | nil => simp
    | cons next texts =>
      rw [List.intercalate_cons_cons, List.append_assoc]
      show fields (text ++ ' ' :: (List.replicate n ' ' ++ _)) = _
      rw [fields_append, fields_replicate_append, ih]
      rfl

namespace Decimal

/-- A numeral is one field. -/
theorem fields_toString (n : Int) : fields (toString n).toList = [(toString n).toList] := by
  apply fields_of_not_mem (not_mem_toString rfl (by decide) n)
  rw [Int.toString_eq_repr, Int.repr_eq_if]
  split
  · rw [Nat.toList_repr]
    exact Nat.toDigits_ne_nil
  · simp

/-- The blanks in front of a number do not count. -/
theorem fields_padLeft (width : Nat) (n : Int) :
    fields (padLeft width n).toList = [(toString n).toList] := by
  rw [padLeft, String.toList_append, String.toList_ofList, fields_replicate_append,
    fields_toString]

theorem toString_inj {n n' : Int} : (toString n).toList = (toString n').toList ↔ n = n' := by
  rw [String.toList_inj, Int.toString_eq_repr, Int.toString_eq_repr, Int.repr_inj]

end Decimal

/-! ### Registers -/

namespace Registers

variable {r r' : Registers}

/-- A register is shown by its name, an arrow and its value. -/
theorem fields_cellText (r : Registers) (i : Fin 8) : fields (r.cellText i).toList =
    ['r' :: i.val.repr.toList, ['=', '>'], (toString (r.get i)).toList] := by
  have hname : ' ' ∉ 'r' :: i.val.repr.toList := by
    rw [List.mem_cons, not_or]
    exact ⟨by decide, Decimal.not_mem_repr rfl _⟩
  have htext : (r.cellText i).toList = ('r' :: i.val.repr.toList) ++ ' ' ::
      (['=', '>'] ++ ' ' :: (Decimal.padLeft 5 (r.get i)).toList) := by
    show ("r" ++ i.val.repr ++ " => " ++ Decimal.padLeft 5 (r.get i)).toList = _
    simp only [String.toList_append, List.append_assoc]
    rfl
  rw [htext, fields_append, fields_append, Decimal.fields_padLeft,
    fields_of_not_mem hname (List.cons_ne_nil _ _)]
  rfl

/-- A row has the fields of its registers. -/
theorem fields_rowText (r : Registers) (row : List (Fin 8)) :
    fields (r.rowText row).toList = row.flatMap fun i => fields (r.cellText i).toList := by
  rw [rowText, String.toList_intercalate, List.map_map]
  show fields ((List.replicate 2 ' ').intercalate _) = _
  rw [fields_intercalate, List.flatMap_map]
  rfl

example : fields "r0 =>    12  r1 => -70000".toList =
    ["r0", "=>", "12", "r1", "=>", "-70000"].map String.toList := by
  decide

/-- **A row tells the values of its registers.** -/
theorem get_eq_of_rowText_eq {row : List (Fin 8)} (h : r.rowText row = r'.rowText row) :
    ∀ i ∈ row, r.get i = r'.get i := by
  have hfields := congrArg (fun text => fields text.toList) h
  simp only [fields_rowText, fields_cellText] at hfields
  clear h
  -- each register has three fields, the last of which is its value
  induction row with
  | nil => exact fun i hi => absurd hi List.not_mem_nil
  | cons i row ih =>
    simp only [List.flatMap_cons, List.cons_append, List.nil_append, List.cons.injEq, true_and,
      Decimal.toString_inj] at hfields
    exact List.forall_mem_cons.mpr ⟨hfields.1, ih hfields.2⟩

/-- The two rows tell the values of all registers. -/
theorem get_eq_of_dumpLines_eq (h : r.dumpLines = r'.dumpLines) (i : Fin 8) :
    r.get i = r'.get i := by
  simp only [dumpLines, List.cons.injEq, and_true] at h
  have hin : i ∈ [0, 1, 2, 3] ∨ i ∈ [4, 5, 6, 7] := by
    revert i
    decide
  rcases hin with hin | hin
  · exact get_eq_of_rowText_eq h.1 i hin
  · exact get_eq_of_rowText_eq h.2 i hin

end Registers

/-! ### Stacks -/

namespace Stack

variable {s s' : Stack}

/-- The dump of an empty stack is not a list of numerals. -/
theorem empty_ne_numerals (items : List Int) :
    ["<empty>".toList] ≠ items.map fun n => (toString n).toList := by
  intro h
  have hmem : "<empty>".toList ∈ items.map fun n => (toString n).toList := by
    rw [← h]
    exact List.mem_singleton_self _
  obtain ⟨n, -, hn⟩ := List.mem_map.mp hmem
  have hopen : '<' ∈ "<empty>".toList := by decide
  rw [← hn] at hopen
  exact Decimal.not_mem_toString rfl (by decide) n hopen

/-- A stack is shown by its items, from the bottom to the top. -/
theorem fields_dump (s : Stack) : fields s.dump.toList =
    if s.toList = [] then ["<empty>".toList] else s.toList.map fun n => (toString n).toList := by
  obtain ⟨items⟩ := s
  cases items with
  | nil => rfl
  | cons x items =>
    rw [if_neg (by simp [toList])]
    show fields (" ".intercalate ((toList ⟨x :: items⟩).map toString)).toList = _
    rw [String.toList_intercalate, List.map_map]
    show fields ((List.replicate 1 ' ').intercalate _) = _
    rw [fields_intercalate, List.flatMap_map, List.map_eq_flatMap]
    exact congrArg (List.flatMap · _) (funext Decimal.fields_toString)

/-- **A stack can be told from its dump.** -/
theorem toList_eq_of_dump_eq (h : s.dump = s'.dump) : s.toList = s'.toList := by
  have hfields := congrArg (fun text => fields text.toList) h
  simp only [fields_dump] at hfields
  -- an empty stack has a field that no other stack has
  split at hfields
  · rename_i hempty
    split at hfields
    · rename_i hempty'
      rw [hempty, hempty']
    · exact absurd hfields (empty_ne_numerals _)
  · split at hfields
    · exact absurd hfields.symm (empty_ne_numerals _)
    · exact (List.map_inj_right fun _ _ => Decimal.toString_inj.mp).mp hfields

end Stack

/-! ### Dumps -/

namespace Machine.Snapshot

/-- Two snapshots **show the same**. -/
structure Same (s s' : Snapshot) : Prop where
  /-- The program counters are the same. -/
  pc : s.pc = s'.pc
  /-- Both machines go on, or both have halted, or both have failed. -/
  state : s.status.name = s'.status.name
  /-- The numbers of steps are the same. -/
  steps : s.steps = s'.steps
  /-- All registers hold the same values. -/
  registers : ∀ i, s.registers.get i = s'.registers.get i
  /-- The stacks hold the same items, from the bottom to the top. -/
  stack : s.stack.toList = s'.stack.toList

/-- The parts of the first line of a dump. -/
def parts (s : Snapshot) : List String :=
  ["PC:" ++ toString s.pc, "STATE:" ++ s.status.name, "STEPS:" ++ toString s.steps]

/-- Where no column is padded, there are no blanks but those between the parts. -/
theorem blank_not_mem_parts (s : Snapshot) : ∀ part ∈ s.parts, ' ' ∉ part.toList := by
  have hnumeral : ∀ n : Int, ' ' ∉ (toString n).toList := Decimal.not_mem_toString rfl (by decide)
  have hname : ' ' ∉ s.status.name.toList := by
    cases s.status with
    | running | halted => decide
    | faulted report =>
      show ' ' ∉ "faulted".toList
      decide
  intro part hpart
  simp only [parts, List.mem_cons, List.not_mem_nil, or_false] at hpart
  rcases hpart with rfl | rfl | rfl
  all_goals rw [String.toList_append, List.mem_append, not_or]
  · exact ⟨by decide, hnumeral s.pc⟩
  · exact ⟨by decide, hname⟩
  · exact ⟨by decide, hnumeral s.steps⟩

/-- A dump is made of its parts. -/
theorem lines_eq (s : Snapshot) : s.lines =
    " ".intercalate s.parts :: (s.registers.dumpLines ++ ["STACK: " ++ s.stack.dump]) := by
  have hfirst : s!"PC:{s.pc} STATE:{s.status.name} STEPS:{s.steps}" = " ".intercalate s.parts := by
    apply String.toList_inj.mp
    simp [parts]
    rfl
  rw [← hfirst]
  rfl

/-- **A dump tells all that it shows.** -/
theorem lines_eq_iff {s s' : Snapshot} : s.lines = s'.lines ↔ s.Same s' := by
  have hlength : ∀ r : Registers, r.dumpLines.length = 2 := fun _ => rfl
  have hne : ∀ s : Snapshot, s.parts ≠ [] := fun _ => List.cons_ne_nil _ _
  constructor
  · intro h
    rw [lines_eq, lines_eq, List.cons.injEq] at h
    obtain ⟨hfirst, hrest⟩ := h
    have hparts := eq_of_intercalate_blank (hne s) (hne s') s.blank_not_mem_parts
      s'.blank_not_mem_parts hfirst
    obtain ⟨hregisters, hstack⟩ := List.append_inj hrest (by rw [hlength, hlength])
    simp only [parts, List.cons.injEq, and_true, String.append_right_inj, Int.toString_eq_repr,
      Int.repr_inj] at hparts hstack
    obtain ⟨hpc, hstate, hsteps⟩ := hparts
    exact ⟨hpc, hstate, hsteps, Registers.get_eq_of_dumpLines_eq hregisters,
      Stack.toList_eq_of_dump_eq hstack⟩
  · intro h
    have hcells : s.registers.cellText = s'.registers.cellText := by
      funext i
      simp only [Registers.cellText, h.registers]
    have hregisters : s.registers.dumpLines = s'.registers.dumpLines := by
      simp only [Registers.dumpLines, Registers.rowText, hcells]
    have hitems : s.stack.items = s'.stack.items := List.reverse_inj.mp h.stack
    have hstack : s.stack.dump = s'.stack.dump := by
      simp only [Stack.dump, Stack.toList, hitems]
    rw [lines_eq, lines_eq, parts, parts, h.pc, h.state, h.steps, hregisters, hstack]

end Machine.Snapshot

namespace Monitor

/-- What a dump adds to a log. -/
theorem log_debugDump_iff {monitor : Monitor} {lines : List LogLine} :
    monitor.debugDump.log = monitor.log ++ lines ↔
      monitor.machine.snapshot.lines.map LogLine.info = lines := by
  constructor
  · intro h
    have hlists := congrArg Array.toList h
    simp only [debugDump, Array.toList_appendList] at hlists
    exact List.append_cancel_left hlists
  · rintro rfl
    rfl

/-- **A dump omits nothing.**  Two dumps are the same lines exactly when program counter, state,
number of steps, all registers and the whole stack are the same, whatever integers these are and
however high the stack is.  The lines are what a host program finds in the log when it asks for a
dump. -/
theorem dumps_eq_iff :
    (∀ s s' : Machine.Snapshot, s.lines = s'.lines ↔ s.Same s') ∧
      ∀ monitor monitor' : Monitor,
        (∃ lines : List LogLine, monitor.debugDump.log = monitor.log ++ lines ∧
            monitor'.debugDump.log = monitor'.log ++ lines) ↔
          monitor.machine.snapshot.Same monitor'.machine.snapshot := by
  refine ⟨fun s s' => Machine.Snapshot.lines_eq_iff, fun monitor monitor' => ?_⟩
  have hinfo : ∀ text text', LogLine.info text = LogLine.info text' → text = text' :=
    fun _ _ h => congrArg LogLine.text h
  simp only [log_debugDump_iff, exists_eq_left', List.map_inj_right hinfo]
  rw [eq_comm, Machine.Snapshot.lines_eq_iff]

end Monitor

end WordMachine
