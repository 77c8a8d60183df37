/-
  Listings and traces.

  A listing takes an image apart word by word (`exists_sweep`), and every word of the image is in
  exactly one of its lines.  The machine reads the same image from its memory when it executes it.
  `Listing.agrees_with_trace` compares the two: at the address of each line a machine that is traced
  logs that line, or, where the line shows data, says why it is none or how the instruction goes on
  behind the image.
-/
import WordMachine.Listing
import WordMachine.Proofs.Fetch
import WordMachine.Proofs.Runs

namespace WordMachine

/-- The operands of an operation that stands at a place of a list of words; behind the list there
are zeros. -/
def Opcode.operandsIn (op : Opcode) (words : List Int) (a : Nat) : List Operand :=
  (List.range op.arity).map fun k => .ofRaw (words.getD (a + 1 + k) 0)

namespace Listing

variable {words : List Int} {address low high : Int} {a : Nat}

/-! ### Words at addresses -/

/-- The word that an address stands for. -/
def wordOf (words : List Int) (address : Int) : Int :=
  words.getD (place words.length address).toNat 0

@[simp] theorem wordOf_natCast (words : List Int) (a : Nat) : wordOf words a = words.getD a 0 := by
  rw [wordOf, place, if_neg (by omega), Int.toNat_natCast]

theorem getElem?_place (hle : -(words.length : Int) ≤ address) (hlt : address < words.length) :
    words[(place words.length address).toNat]? = some (wordOf words address) := by
  have hin : (place words.length address).toNat < words.length := by
    unfold place
    split <;> omega
  rw [wordOf, List.getElem?_eq_getElem hin, List.getD_eq_getElem _ _ hin]

/-- There are words at the addresses from the negative length on. -/
theorem wordAt?_eq (haddress : address < words.length) : wordAt? words.toArray address =
    if -(words.length : Int) ≤ address then some (wordOf words address) else none := by
  have hplace : 0 ≤ place words.length address ↔ -(words.length : Int) ≤ address := by
    unfold place
    split <;> omega
  unfold wordAt?
  rw [List.size_toArray]
  by_cases hle : -(words.length : Int) ≤ address
  · rw [if_pos hle, if_pos (hplace.mpr hle), List.getElem?_toArray, getElem?_place hle haddress]
  · rw [if_neg hle, if_neg (mt hplace.mp hle)]

/-- The number of words from one address up to another.  Where the range leads from the end of the
list to its beginning, it has lost as many words as there are in the list. -/
def countBetween (size : Nat) (low high : Int) : Nat :=
  if low < 0 ∧ 0 ≤ high then (high - low).toNat - size else (high - low).toNat

theorem wordsBetween_eq (hlow : -(words.length : Int) ≤ low) (hle : low ≤ high)
    (hhigh : high ≤ words.length) : wordsBetween words.toArray low high =
      (List.range (countBetween words.length low high)).map fun k : Nat =>
        wordOf words (low + k) := by
  have hlength : (wordsBetween words.toArray low high).length =
      countBetween words.length low high := by
    unfold wordsBetween countBetween place
    simp only [List.size_toArray, Array.length_toList, Array.size_extract]
    split <;> split <;> split <;> omega
  refine List.ext_getElem (by simpa using hlength) fun k hk _ => ?_
  rw [hlength] at hk
  -- the word counted from the start of the slice is the word at the address
  have hplace : (place words.length low).toNat + k = (place words.length (low + k)).toNat ∧
      (place words.length (low + k)).toNat < words.length := by
    unfold countBetween at hk
    unfold place
    split at hk <;> split <;> split <;> omega
  simp [wordsBetween, wordOf, hplace]

/-! ### Lines -/

/-- `Lists words a content` says what a listing of all `words` shows at the place `a`. -/
inductive Lists (words : List Int) (a : Nat) : Content → Prop
  | code {op : Opcode} (hop : words.getD a 0 = op.code) (hfits : a + op.width ≤ words.length) :
    Lists words a (.code op (op.operandsIn words a))
  | cut {op : Opcode} (hop : words.getD a 0 = op.code) (hcut : words.length < a + op.width) :
    Lists words a (.data op.code)
  | unknown {word : Int} (hword : words.getD a 0 = word) (hunknown : Opcode.ofCode? word = none) :
    Lists words a (.data word)

theorem wordsBetween_operands {op : Opcode} (hfits : a + op.width ≤ words.length) :
    (wordsBetween words.toArray (a + 1) (a + op.width)).map .ofRaw = op.operandsIn words a := by
  have hwidth : op.width = 1 + op.arity := rfl
  have hcount : countBetween words.length (a + 1) (a + op.width) = op.arity := by
    rw [countBetween, if_neg (by omega)]
    omega
  rw [wordsBetween_eq (by omega) (by omega) (by omega), hcount, List.map_map, Opcode.operandsIn]
  apply List.map_congr_left
  intro k _
  show Operand.ofRaw (wordOf words ((a + 1 + k : Nat) : Int)) = _
  rw [wordOf_natCast]

/-- Every place of the list is shown. -/
theorem exists_contentAt? (ha : a < words.length) :
    ∃ content, contentAt? words.toArray words.length a = some content ∧ Lists words a content := by
  have hword : wordAt? words.toArray a = some (words.getD a 0) := by
    rw [wordAt?_eq (by omega), if_pos (by omega), wordOf_natCast]
  unfold contentAt?
  rw [hword]
  refine ⟨_, rfl, ?_⟩
  dsimp only
  split
  · rename_i op hop
    rw [Opcode.ofCode?_eq_some_iff] at hop
    split
    · rw [hop]
      exact .cut hop (by omega)
    · rw [wordsBetween_operands (by omega)]
      exact .code hop (by omega)
  · exact .unknown rfl ‹_›

/-- A line ends inside of the list. -/
theorem Lists.fits {content : Content} (h : Lists words a content) (ha : a < words.length) :
    a + content.width ≤ words.length := by
  cases h with
  | code hop hfits => exact hfits
  | cut hop hcut => exact ha
  | unknown hword hunknown => exact ha

/-! ### Sweeps -/

/-- `Sweeps words a entries` says that the entries are the lines of a listing of all `words` from
the place `a` on, each of them starting where the line before it ends. -/
inductive Sweeps (words : List Int) : Nat → List Entry → Prop
  | nil : Sweeps words words.length []
  | cons {a : Nat} {content : Content} {rest : List Entry} (ha : a < words.length)
    (hcontent : Lists words a content) (hrest : Sweeps words (a + content.width) rest) :
    Sweeps words a (⟨a, content⟩ :: rest)

theorem exists_sweepFrom (ha : a ≤ words.length) (done : Array Entry) :
    ∃ rest, (sweepFrom words.toArray words.length a done).map Array.toList =
      .ok (done.toList ++ rest) ∧ Sweeps words a rest := by
  induction hn : words.length - a using Nat.strongRecOn generalizing a done with
  | _ n ih =>
    rw [sweepFrom]
    by_cases hlt : a < words.length
    · obtain ⟨content, hcontent, hlists⟩ := exists_contentAt? hlt
      have hfits := hlists.fits hlt
      have hpos := content.width_pos
      obtain ⟨rest, hrest, hsweeps⟩ :=
        ih (words.length - (a + content.width)) (by omega) hfits (done.push ⟨a, content⟩) rfl
      refine ⟨⟨a, content⟩ :: rest, ?_, .cons hlt hlists hsweeps⟩
      rw [Int.natCast_add, Array.toList_push, List.append_assoc] at hrest
      rw [if_pos (by omega), hcontent]
      exact hrest
    · obtain rfl : a = words.length := by omega
      refine ⟨[], ?_, .nil⟩
      rw [if_neg (by omega), List.append_nil]
      rfl

/-- **Every list of words has a listing.** -/
theorem exists_sweep (words : List Int) : ∃ entries, sweep words = .ok entries ∧
    Sweeps words 0 entries :=
  exists_sweepFrom (Nat.zero_le words.length) #[]

theorem Sweeps.lists {entries : List Entry} (h : Sweeps words a entries) :
    ∀ e ∈ entries, ∃ b : Nat, e.address = b ∧ b < words.length ∧ Lists words b e.content := by
  induction h with
  | nil => exact fun e he => absurd he List.not_mem_nil
  | cons ha hcontent _ ih => exact List.forall_mem_cons.mpr ⟨⟨_, rfl, ha, hcontent⟩, ih⟩

/-- No word is left out. -/
theorem Sweeps.covers {entries : List Entry} (h : Sweeps words a entries) {b : Nat} (hab : a ≤ b)
    (hb : b < words.length) : ∃ e ∈ entries, e.address ≤ b ∧ b < e.address + e.content.width := by
  induction h with
  | nil => omega
  | @cons a content rest ha _ _ ih =>
    by_cases hin : b < a + content.width
    · refine ⟨_, List.mem_cons_self, ?_, ?_⟩
      · show (a : Int) ≤ b
        omega
      · show (b : Int) < a + content.width
        omega
    · obtain ⟨e, he, hplace⟩ := ih (by omega)
      exact ⟨e, List.mem_cons_of_mem _ he, hplace⟩

end Listing

/-! ### Traces -/

namespace Monitor

variable {monitor : Monitor}

/-- The monitor with its machine moved to an address. -/
def moveTo (monitor : Monitor) (address : Int) : Monitor :=
  { monitor with machine := { monitor.machine with pc := address } }

/-- `monitor.Traces lines` says that the trace of the next step consists of `lines`: they are what
the step logs in addition to the account that it gives when it is not traced. -/
def Traces (monitor : Monitor) (lines : List String) : Prop :=
  ∃ account : List LogLine,
    ({ monitor with trace := false } : Monitor).step.1.log = monitor.log ++ account ∧
      monitor.step.1.log = monitor.log ++ lines.map LogLine.info ++ account

/-- What a step logs: the trace comes first. -/
theorem log_step (monitor : Monitor) :
    monitor.step.1.log = monitor.log ++
      (if monitor.trace then traceAccount monitor.machine else []) ++
        stepAccount monitor.dump monitor.machine.step.1 monitor.machine.step.2 := rfl

theorem traces_of_account {lines : List String} (htrace : monitor.trace = true)
    (h : traceAccount monitor.machine = lines.map LogLine.info) : monitor.Traces lines := by
  refine ⟨stepAccount monitor.dump monitor.machine.step.1 monitor.machine.step.2, ?_, ?_⟩
  · rw [log_step, if_neg Bool.false_ne_true, Array.appendList_nil]
  · rw [log_step, if_pos htrace, h]

/-- An instruction is traced before it is executed. -/
theorem traces_of_fetch {i : Instruction} (htrace : monitor.trace = true)
    (hrun : monitor.machine.status = .running) (hi : monitor.machine.fetch = .ok i) :
    monitor.Traces [i.line monitor.machine.pc] := by
  apply traces_of_account htrace
  simp only [traceAccount, hrun, hi, List.map_cons, List.map_nil]

theorem traces_of_fetch_eq_error {fault : Fault} (htrace : monitor.trace = true)
    (hi : monitor.machine.fetch = .error fault) : monitor.Traces [] := by
  apply traces_of_account htrace
  unfold traceAccount
  rw [hi]
  cases monitor.machine.status <;> rfl

/-- A machine **stands** at a place of an image when the image is in its memory and the machine is
running there and is traced. -/
structure StandsAt (monitor : Monitor) (image : List Int) (a : Nat) : Prop where
  trace : monitor.trace = true
  running : monitor.machine.status = .running
  loaded : (Memory.zero 32768).load image = .ok monitor.machine.memory
  pc : monitor.machine.pc = a
  inside : a < 32768

variable {image : List Int} {a : Nat}

theorem StandsAt.read (h : monitor.StandsAt image a) :
    monitor.machine.memory.read monitor.machine.pc = .ok (image.getD a 0) := by
  rw [h.pc]
  exact Memory.read_load_zero h.loaded h.inside

/-- Where nothing is fetched, nothing is traced, and the step fails there. -/
theorem StandsAt.fails (h : monitor.StandsAt image a) {fault : Fault}
    (hi : monitor.machine.fetch = .error fault) :
    monitor.Traces [] ∧ monitor.step.2 = .failed (.fault ⟨fault, a⟩) := by
  refine ⟨traces_of_fetch_eq_error h.trace hi, ?_⟩
  rw [step_result, Machine.step_of_fetch_eq_error h.running hi, ← h.pc]
  rfl

theorem StandsAt.fails_of_unknown (h : monitor.StandsAt image a) {word : Int}
    (hword : image.getD a 0 = word) (hunknown : Opcode.ofCode? word = none) :
    monitor.Traces [] ∧ monitor.step.2 = .failed (.fault ⟨.unknownOpcode word, a⟩) := by
  have hread := h.read
  rw [hword] at hread
  exact h.fails (Machine.fetch_of_unknown hread hunknown)

/-- **An operation that fits into the memory is traced** with the words of the image behind it as
operands, and with zeros behind the image. -/
theorem StandsAt.traces (h : monitor.StandsAt image a) {op : Opcode}
    (hop : image.getD a 0 = op.code) (hfits : a + op.width ≤ 32768) :
    monitor.Traces [Instruction.lineText a op (op.operandsIn image a)] := by
  have hopcode : (Instruction.build op fun k => .ofRaw (image.getD (a + 1 + k) 0)).opcode = op :=
    Instruction.opcode_build _ _
  have hoperands : (Instruction.build op fun k => .ofRaw (image.getD (a + 1 + k) 0)).operands =
      op.operandsIn image a := Instruction.operands_build _ _
  generalize Instruction.build op _ = i at hopcode hoperands
  have hfetch : monitor.machine.fetch = .ok i := by
    apply Machine.fetch_of_image h.loaded h.pc
    · rwa [Instruction.width, hopcode]
    · rw [hopcode, hop]
    · rw [hoperands, hopcode]
      rfl
  have htraces := traces_of_fetch h.trace h.running hfetch
  rwa [Instruction.line, h.pc, hopcode, hoperands] at htraces

/-- It is the end of the memory that counts, not the end of the image. -/
theorem StandsAt.traces_or_fails (h : monitor.StandsAt image a) {op : Opcode}
    (hop : image.getD a 0 = op.code) :
    if 32768 < a + op.width then
      monitor.Traces [] ∧ ∃ b, monitor.step.2 = .failed (.fault ⟨.addressOutOfRange b, a⟩)
    else monitor.Traces [Instruction.lineText a op (op.operandsIn image a)] := by
  split
  · rename_i hcut
    have hread := h.read
    have hpc := h.pc
    rw [hop] at hread
    obtain ⟨b, hfetch⟩ := Machine.fetch_of_cut hread (by omega)
    obtain ⟨hnothing, hfails⟩ := h.fails hfetch
    exact ⟨hnothing, b, hfails⟩
  · rename_i hfits
    exact h.traces hop (Nat.le_of_not_lt hfits)

end Monitor

/-- **Listings agree with traces.**  An image that can be loaded has a listing, and each of its words
is in a line of it.  When a machine that is traced is moved to the address of a line, its next step
traces exactly that line if it shows an instruction.  If it shows data that is no operation, the
step traces nothing and fails there because of it.  All other data are operations of instructions
that reach behind the image: if such an instruction reaches behind the memory, the step traces
nothing and fails there because of an address, else it traces the instruction with the words of the
image and then zeros as operands. -/
theorem Listing.agrees_with_trace {image : List Int} (himage : Image.Loadable image)
    (channel : Channel) (dump : Bool) :
    ∃ entries monitor, sweep image = .ok entries ∧
      (Monitor.fresh channel true dump).load image = .ok monitor ∧
      (∀ a < image.length, ∃ e ∈ entries, e.address ≤ a ∧ a < e.address + e.content.width) ∧
      ∀ e ∈ entries, ∃ a : Nat, e.address = a ∧ a < image.length ∧
        match e.content with
        | .code _ _ => (monitor.moveTo a).Traces [e.text]
        | .data word => image.getD a 0 = word ∧
          match Opcode.ofCode? word with
          | none => (monitor.moveTo a).Traces [] ∧
            (monitor.moveTo a).step.2 = .failed (.fault ⟨.unknownOpcode word, a⟩)
          | some op => image.length < a + op.width ∧
            if 32768 < a + op.width then (monitor.moveTo a).Traces [] ∧
              ∃ b, (monitor.moveTo a).step.2 = .failed (.fault ⟨.addressOutOfRange b, a⟩)
            else (monitor.moveTo a).Traces [Instruction.lineText a op (op.operandsIn image a)] := by
  obtain ⟨entries, hsweep, hsweeps⟩ := exists_sweep image
  obtain ⟨monitor, memory, hmonitor, hmemory, hmachine, htrace⟩ :=
    Monitor.exists_load_fresh himage channel true dump
  have hload : (Memory.zero 32768).load image = .ok monitor.machine.memory := by
    rw [hmemory, hmachine]
  have hrun : monitor.machine.status = .running := congrArg Machine.status hmachine
  refine ⟨entries, monitor, hsweep, hmonitor,
    fun a ha => hsweeps.covers (Nat.zero_le a) ha, fun e he => ?_⟩
  obtain ⟨a, haddress, ha, hlists⟩ := hsweeps.lists e he
  obtain ⟨address, content⟩ := e
  cases haddress
  refine ⟨a, rfl, ha, ?_⟩
  have hlength := himage.length_le
  have hstands : (monitor.moveTo a).StandsAt image a := ⟨htrace, hrun, hload, rfl, by omega⟩
  generalize monitor.moveTo a = here at hstands ⊢
  cases hlists with
  | code hop hfits => exact hstands.traces hop (by omega)
  | cut hop hcut =>
    refine ⟨hop, ?_⟩
    rw [Opcode.ofCode?_code]
    exact ⟨hcut, hstands.traces_or_fails hop⟩
  | unknown hword hunknown =>
    refine ⟨hword, ?_⟩
    rw [hunknown]
    exact hstands.fails_of_unknown hword hunknown

/-- An addition, a word that is no operation, and a call without its operand. -/
theorem Listing.agrees_with_trace_of_cut_call :
    Image.Loadable [9, 32768, 1, 2, 40, 17] ∧
      sweep [9, 32768, 1, 2, 40, 17] =
        .ok [⟨0, .code .add [.register 0, .literal 1, .literal 2]⟩, ⟨4, .data 40⟩, ⟨5, .data 17⟩] ∧
      ∃ monitor, (Monitor.fresh .detached true false).load [9, 32768, 1, 2, 40, 17] = .ok monitor ∧
        (monitor.moveTo 0).Traces ["00000: add r0 1 2"] ∧
        (monitor.moveTo 4).Traces [] ∧
        (monitor.moveTo 4).step.2 = .failed (.fault ⟨.unknownOpcode 40, 4⟩) ∧
        (monitor.moveTo 5).Traces ["00005: call 0"] := by
  have himage : Image.Loadable [9, 32768, 1, 2, 40, 17] := by decide
  have hlisting : sweep [9, 32768, 1, 2, 40, 17] =
      .ok [⟨0, .code .add [.register 0, .literal 1, .literal 2]⟩, ⟨4, .data 40⟩,
        ⟨5, .data 17⟩] := by
    simp +decide [sweep, sweepFrom, stopAddress, contentAt?, wordAt?, wordsBetween, place,
      Content.width, Opcode.ofCode?, Opcode.all, Opcode.width, Opcode.arity, Except.map]
  obtain ⟨entries, monitor, hsweep, hmonitor, -, hlines⟩ :=
    agrees_with_trace himage .detached false
  obtain rfl := Except.ok.inj (hlisting.symm.trans hsweep)
  simp only [List.forall_mem_cons] at hlines
  obtain ⟨⟨a, ha, -, hadd⟩, ⟨b, hb, -, -, hdata⟩, ⟨c, hc, -, -, -, hcall⟩, -⟩ := hlines
  obtain rfl : a = 0 := by omega
  obtain rfl : b = 4 := by omega
  obtain rfl : c = 5 := by omega
  have haddText : (⟨0, .code .add [.register 0, .literal 1, .literal 2]⟩ : Entry).text =
      "00000: add r0 1 2" := rfl
  have hcallText : Instruction.lineText (5 : Nat) .call
      (Opcode.call.operandsIn [9, 32768, 1, 2, 40, 17] 5) = "00005: call 0" := rfl
  rw [haddText] at hadd
  rw [if_neg (by decide), hcallText] at hcall
  exact ⟨himage, hlisting, monitor, hmonitor, hadd, hdata.1, hdata.2, hcall⟩

end WordMachine
