import VmInspect.Proofs.Lines.Lookup

/-!
# How close the checkpoints stand

A lookup is short because the writer never lets more than a stride of instructions pass without a
checkpoint.  It counts the instructions since the last one, but only where the distance fits a byte,
and it begins with zero at the first instruction and with one after a checkpoint.  This file shows that
the count comes out right in each case:

* `LineTable.Paced` — cut at its checkpoints, the table has no stretch longer than a stride.
* `LineWriter.KeepsPace` — the writer keeps it so, and its count is the length of the stretch that it
  is in.
* `LineTable.size_window_le` — so a lookup adds up at most a stride of distances.
* `LineTable.exists_estimate_le` — and the checkpoint that it guesses is not past the instruction.
* `Builder.emitAll_keeps_pace` — all of this for the tables that a builder writes, after every
  instruction.
-/

namespace VmInspect

/-! ## Markers -/

namespace LineStep

/-- A step that survives as a byte is kept as the byte of a checkpoint only if it is one. -/
theorem bmod_byte_eq_checkpointByte_iff {s : LineStep} (h : s.stored = s) :
    s.byte.bmod 256 = checkpointByte ↔ s = checkpoint := by
  constructor
  · intro hbyte
    rw [stored, hbyte] at h
    exact h.symm
  · rintro rfl
    decide

end LineStep

namespace LineTable

variable {t u : LineTable}

/-- The signed byte that is kept for an instruction. -/
def byte? (t : LineTable) (pc : Nat) : Option Int := t.steps[pc]?.map fun s => s.byte.bmod 256

/-- The places of the checkpoints, in the order in which they are kept. -/
def checkpointPcs (t : LineTable) : List Nat := t.checkpoints.toList.map Checkpoint.pc

theorem getElem?_checkpointPcs_eq_some_iff {i pc : Nat} :
    t.checkpointPcs[i]? = some pc ↔ ∃ c, t.checkpoints[i]? = some c ∧ c.pc = pc := by
  rw [checkpointPcs, List.getElem?_map, Array.getElem?_toList, Option.map_eq_some_iff]

theorem mem_checkpointPcs {pc : Nat} : pc ∈ t.checkpointPcs ↔ ∃ c ∈ t.checkpoints, c.pc = pc := by
  simp [checkpointPcs]

/-- In a well-formed table the checkpoints stand in ascending order. -/
theorem WellFormed.pairwise_checkpointPcs (h : t.WellFormed) : t.checkpointPcs.Pairwise (· < ·) := by
  rw [List.pairwise_iff_getElem]
  intro i j hi hj hij
  obtain ⟨a, ha, hapc⟩ := getElem?_checkpointPcs_eq_some_iff.1 (List.getElem?_eq_getElem hi)
  obtain ⟨b, hb, hbpc⟩ := getElem?_checkpointPcs_eq_some_iff.1 (List.getElem?_eq_getElem hj)
  rw [← hapc, ← hbpc]
  exact h.sorted i j a b hij ha hb

/-- The byte of a checkpoint stands at the checkpoints, and nowhere else. -/
theorem WellFormed.byte?_eq_checkpointByte_iff (h : t.WellFormed)
    (hstored : ∀ s ∈ t.steps, s.stored = s) (pc : Nat) :
    t.byte? pc = some LineStep.checkpointByte ↔ pc ∈ t.checkpointPcs := by
  rw [mem_checkpointPcs, ← h.marked, byte?, Option.map_eq_some_iff]
  constructor
  · rintro ⟨s, hs, hbyte⟩
    rw [hs, (LineStep.bmod_byte_eq_checkpointByte_iff (hstored s (Array.mem_of_getElem? hs))).1 hbyte]
  · intro hs
    exact ⟨_, hs, by decide⟩

/-! ## Stretches -/

/-- Where a stretch begins: the first one at the first instruction, and then one at each checkpoint. -/
def stretchStart (t : LineTable) : Nat → Nat
  | 0 => 0
  | i + 1 => (t.checkpoints[i]?.map Checkpoint.pc).getD 0

theorem stretchStart_succ {i : Nat} {c : Checkpoint} (h : t.checkpoints[i]? = some c) :
    t.stretchStart (i + 1) = c.pc := by
  rw [stretchStart, h]
  rfl

/-- No stretch is longer than a stride: none of those that end at a checkpoint, nor the last one. -/
structure Paced (t : LineTable) : Prop where
  gap : ∀ i c, t.checkpoints[i]? = some c → c.pc ≤ t.stretchStart i + t.stride
  tail : t.steps.size ≤ t.stretchStart t.checkpoints.size + t.stride

namespace Paced

/-- Where the instructions go on for more than a stride, the next checkpoint comes within it. -/
theorem exists_next (h : t.Paced) {i : Nat} (hi : i ≤ t.checkpoints.size)
    (hlong : t.stretchStart i + t.stride < t.steps.size) :
    ∃ c, t.checkpoints[i]? = some c ∧ c.pc ≤ t.stretchStart i + t.stride := by
  rcases Nat.lt_or_eq_of_le hi with hlt | rfl
  · have hc := Array.getElem?_eq_getElem hlt
    exact ⟨_, hc, h.gap i _ hc⟩
  · have := h.tail
    omega

/-- A checkpoint is at most as many strides in as there are checkpoints up to it. -/
theorem pc_le_mul (h : t.Paced) {i : Nat} {c : Checkpoint} (hc : t.checkpoints[i]? = some c) :
    c.pc ≤ (i + 1) * t.stride := by
  induction i generalizing c with
  | zero => simpa [stretchStart] using h.gap 0 c hc
  | succ i ih =>
    have hlt : i < t.checkpoints.size := by
      have := (Array.getElem?_eq_some_iff.1 hc).1
      omega
    have hb := Array.getElem?_eq_getElem hlt
    have hgap := h.gap (i + 1) c hc
    rw [stretchStart_succ hb] at hgap
    calc c.pc ≤ t.checkpoints[i].pc + t.stride := hgap
      _ ≤ (i + 1) * t.stride + t.stride := Nat.add_le_add_right (ih hb) _
      _ = (i + 1 + 1) * t.stride := (Nat.succ_mul _ _).symm

end Paced

/-! ## One more instruction -/

/-- A checkpoint at the end leaves the stretches in front of it alone. -/
theorem stretchStart_push {c : Checkpoint} (hc : u.checkpoints = t.checkpoints.push c) {i : Nat}
    (hi : i ≤ t.checkpoints.size) : u.stretchStart i = t.stretchStart i := by
  cases i with
  | zero => rfl
  | succ i => rw [stretchStart, stretchStart, hc, Array.getElem?_push, if_neg (by omega)]

/-- A step that is no checkpoint makes the last stretch longer, which had not reached a stride. -/
theorem Paced.push_step (h : t.Paced) (s : LineStep)
    (hshort : t.steps.size < t.stretchStart t.checkpoints.size + t.stride) :
    Paced { t with steps := t.steps.push s } where
  gap := h.gap
  tail := by
    rw [Array.size_push]
    exact hshort

/-- A checkpoint ends the last stretch and begins another one. -/
theorem Paced.push_checkpoint (h : t.Paced) (hpos : 0 < t.stride) (line : Int) :
    Paced { t with
      steps := t.steps.push .checkpoint
      checkpoints := t.checkpoints.push ⟨t.steps.size, line⟩ } where
  gap i c hc := by
    have hi : i ≤ t.checkpoints.size := by
      have := (Array.getElem?_eq_some_iff.1 hc).1
      rw [Array.size_push] at this
      omega
    rw [stretchStart_push (t := t) rfl hi]
    rw [Array.getElem?_push] at hc
    split at hc
    · rename_i hlast
      rw [← Option.some.inj hc, hlast]
      exact h.tail
    · exact h.gap i c hc
  tail := by
    rw [Array.size_push, Array.size_push, stretchStart_succ Array.getElem?_push_size]
    exact Nat.add_le_add_left hpos _

/-! ## Lookups are short -/

/-- A lookup adds up at most a stride of distances. -/
theorem size_window_le (h : t.WellFormed) (hpaced : t.Paced) (pc : Nat) :
    (t.window pc).size ≤ t.stride := by
  rw [window]
  split
  · rename_i hpc
    rw [Array.size_extract, windowStart]
    -- otherwise the next checkpoint would come before the instruction, and be the one to start from
    cases hc : t.checkpointFor? pc with
    | none =>
      refine Nat.le_of_not_lt fun hlong => ?_
      obtain ⟨a, ha, hapc⟩ := hpaced.exists_next (Nat.zero_le _)
        (show t.stretchStart 0 + t.stride < _ by simp only [stretchStart]; omega)
      have := checkpointFor?_eq_none h hc a (Array.mem_of_getElem? ha)
      simp only [stretchStart] at hapc
      omega
    | some c =>
      obtain ⟨hmem, hle, hlast⟩ := checkpointFor?_eq_some h hc
      obtain ⟨i, hi⟩ := Array.mem_iff_getElem?.1 hmem
      have hsize := (Array.getElem?_eq_some_iff.1 hi).1
      have hstart := stretchStart_succ hi
      refine Nat.le_of_not_lt fun hlong => ?_
      obtain ⟨a, ha, hapc⟩ := hpaced.exists_next (i := i + 1) (by omega) (by simp only at hlong; omega)
      have hlater := h.sorted i (i + 1) c a (Nat.lt_succ_self i) hi ha
      have := hlast a (Array.mem_of_getElem? ha) (by simp only at hlong; omega)
      omega
  · exact Nat.zero_le _

/-- The checkpoint that a lookup guesses is not past the instruction, if the first one is not. -/
theorem exists_estimate_le (hpaced : t.Paced) {pc : Nat} {first : Checkpoint}
    (h0 : t.checkpoints[0]? = some first) (hpc : first.pc ≤ pc) :
    ∃ c, t.checkpoints[t.estimate pc]? = some c ∧ c.pc ≤ pc := by
  have hlt := t.estimate_lt_size pc (Array.getElem?_eq_some_iff.1 h0).1
  obtain ⟨c, hc⟩ : ∃ c, t.checkpoints[t.estimate pc]? = some c := ⟨_, Array.getElem?_eq_getElem hlt⟩
  refine ⟨c, hc, ?_⟩
  cases hi : t.estimate pc with
  | zero =>
    rw [hi, h0] at hc
    obtain rfl : first = c := Option.some.inj hc
    exact hpc
  | succ j =>
    have hj : j + 1 + 1 ≤ pc / max t.stride 1 := by
      rw [estimate] at hi
      omega
    rw [hi] at hc
    calc c.pc ≤ (j + 1 + 1) * t.stride := hpaced.pc_le_mul hc
      _ ≤ pc / max t.stride 1 * max t.stride 1 := Nat.mul_le_mul hj (Nat.le_max_left t.stride 1)
      _ ≤ pc := Nat.div_mul_le_self pc _

/-- Without steps and checkpoints there is no stretch at all. -/
theorem paced_of_empty (hs : t.steps = #[]) (hc : t.checkpoints = #[]) : t.Paced where
  gap i c h := by simp [hc] at h
  tail := by simp [hs]

end LineTable

/-! ## The writer keeps pace -/

namespace LineWriter

/-- The table so far has no long stretch, and the writer has counted the instructions of the stretch
that it is in. -/
structure KeepsPace (w : LineWriter) : Prop where
  stride_pos : 0 < w.table.stride
  paced : w.table.Paced
  counted :
    w.table.steps.size = w.table.stretchStart w.table.checkpoints.size + w.sinceCheckpoint

namespace KeepsPace

variable {w : LineWriter}

/-- The step lemma: whichever way a line is recorded, the writer keeps pace. -/
theorem record (h : w.KeepsPace) (line : Int) : (w.record line).KeepsPace := by
  have hcounted := h.counted
  rw [LineWriter.record]
  split
  · rename_i hshort
    rw [Bool.and_eq_true, decide_eq_true_eq] at hshort
    refine ⟨h.stride_pos, h.paced.push_step _ (by omega), ?_⟩
    show (w.table.steps.push _).size = w.table.stretchStart w.table.checkpoints.size + _
    rw [Array.size_push, hcounted]
    rfl
  · refine ⟨h.stride_pos, h.paced.push_checkpoint h.stride_pos line, ?_⟩
    show (w.table.steps.push _).size = LineTable.stretchStart _ (w.table.checkpoints.push _).size + 1
    rw [Array.size_push, Array.size_push, LineTable.stretchStart_succ Array.getElem?_push_size]

/-- The run lemma. -/
theorem foldl_record (told : List Int) :
    ∀ {w : LineWriter}, w.KeepsPace → (told.foldl LineWriter.record w).KeepsPace := by
  induction told with
  | nil => intro w h; exact h
  | cons line told ih => intro w h; exact ih (h.record line)

/-- A writer that has not begun keeps pace, whatever its stride. -/
theorem of_empty (stride : Nat) (defined : Int) :
    ((empty.withStride stride).withDefinedLine defined).KeepsPace where
  stride_pos := Nat.le_max_right stride 1
  paced := {
    gap := fun i c hc => by simp [withDefinedLine, withStride, empty] at hc
    tail := Nat.zero_le _ }
  counted := rfl

/-- No stretch is too long when the table is finished, also when line information is left out. -/
theorem paced_finish (h : w.KeepsPace) (keepLines : Bool) : (w.finish keepLines).Paced := by
  rw [LineWriter.finish]
  split
  · exact h.paced
  · exact LineTable.paced_of_empty rfl rfl

end KeepsPace

theorem stride_finish (w : LineWriter) (keepLines : Bool) :
    (w.finish keepLines).stride = w.table.stride := by
  rw [finish]
  split <;> rfl

end LineWriter

/-! ## Emitting instructions -/

namespace Builder

theorem stride_lines_emitAll (entries : List (Instruction × Int)) :
    ∀ b : Builder, (b.emitAll entries).lines.table.stride = b.lines.table.stride := by
  induction entries with
  | nil => intro b; rfl
  | cons entry entries ih =>
    intro b
    exact (ih (b.emit entry.1 entry.2)).trans (LineWriter.stride_record b.lines entry.2)

/-- **A checkpoint in every stride.**  A builder that has no instructions yet, and whose stride and
defined line are set, is given instructions with their lines.  At any point its table has one step for
each instruction.  The checkpoints stand in ascending order, at just those instructions whose byte is
that of a checkpoint.  The first one comes within a stride from the first instruction, and each of the
others within a stride from the one before, as long as the instructions go on.  So a lookup in the
finished function adds up at most a stride of distances, and the checkpoint at which it begins its
search is not past the instruction.  A stride of zero counts as one. -/
theorem emitAll_keeps_pace {b : Builder} (stride : Nat) (defined : Int)
    (hfresh : b.lines = (LineWriter.empty.withStride stride).withDefinedLine defined)
    (hcode : b.proto.code = #[]) (entries : List (Instruction × Int)) :
    let t := (b.emitAll entries).lines.table
    let u := (b.emitAll entries).build.lines
    t.stride = max stride 1 ∧ t.steps.size = (b.emitAll entries).pc ∧
      t.checkpointPcs.Pairwise (· < ·) ∧
      (∀ pc, t.byte? pc = some LineStep.checkpointByte ↔ pc ∈ t.checkpointPcs) ∧
      (t.stride < t.steps.size → ∃ first, t.checkpointPcs[0]? = some first ∧ first ≤ t.stride) ∧
      (∀ i pc, t.checkpointPcs[i]? = some pc → pc + t.stride < t.steps.size →
        ∃ next, t.checkpointPcs[i + 1]? = some next ∧ next ≤ pc + t.stride) ∧
      ∀ pc, (u.window pc).size ≤ t.stride ∧
        ∀ first, u.checkpointPcs[0]? = some first → first ≤ pc →
          ∃ start, u.checkpointPcs[u.estimate pc]? = some start ∧ start ≤ pc := by
  intro t u
  have hlines := lines_emitAll entries b
  rw [hfresh] at hlines
  have hrecords : (b.emitAll entries).lines.Records (entries.map Prod.snd) :=
    hlines ▸ (LineWriter.Records.of_empty stride defined).foldl_record _
  have hpace : (b.emitAll entries).lines.KeepsPace :=
    hlines ▸ (LineWriter.KeepsPace.of_empty stride defined).foldl_record _
  have hwf : t.WellFormed := hrecords.wellFormed
  have hpaced : t.Paced := hpace.paced
  have hu : u.WellFormed := LineWriter.wellFormed_finish hwf _
  have hupaced : u.Paced := hpace.paced_finish _
  have hustride : u.stride = t.stride := LineWriter.stride_finish _ _
  refine ⟨?_, ?_, hwf.pairwise_checkpointPcs, hwf.byte?_eq_checkpointByte_iff hrecords.stored,
    fun hlong => ?_, fun i pc hpc hlong => ?_, fun pc => ⟨?_, fun first hfirst hle => ?_⟩⟩
  · exact (stride_lines_emitAll entries b).trans (by rw [hfresh]; rfl)
  · rw [hrecords.size, pc, code_emitAll, hcode]
    simp
  · obtain ⟨c, hc, hle⟩ := hpaced.exists_next (Nat.zero_le _)
      (by rwa [LineTable.stretchStart, Nat.zero_add])
    rw [LineTable.stretchStart, Nat.zero_add] at hle
    exact ⟨c.pc, LineTable.getElem?_checkpointPcs_eq_some_iff.2 ⟨c, hc, rfl⟩, hle⟩
  · obtain ⟨c, hc, rfl⟩ := LineTable.getElem?_checkpointPcs_eq_some_iff.1 hpc
    have hstart := LineTable.stretchStart_succ hc
    obtain ⟨d, hd, hle⟩ := hpaced.exists_next (Array.getElem?_eq_some_iff.1 hc).1 (by rwa [hstart])
    rw [hstart] at hle
    exact ⟨d.pc, LineTable.getElem?_checkpointPcs_eq_some_iff.2 ⟨d, hd, rfl⟩, hle⟩
  · exact hustride ▸ LineTable.size_window_le hu hupaced pc
  · obtain ⟨c, hc, rfl⟩ := LineTable.getElem?_checkpointPcs_eq_some_iff.1 hfirst
    obtain ⟨d, hd, hdle⟩ := LineTable.exists_estimate_le hupaced hc hle
    exact ⟨d.pc, LineTable.getElem?_checkpointPcs_eq_some_iff.2 ⟨d, hd, rfl⟩, hdle⟩

/-- With a stride of three the first checkpoint comes as late as it may, the second one is forced by a
long distance, and the third one comes a stride after that.  The lookup in front of the first one adds
up a full stride. -/
theorem emitAll_keeps_pace_forced :
    let b := (empty.withStride 3).withLines 10 600
    let entries : List (Instruction × Int) :=
      [11, 12, 13, 14, 500, 501, 502, 503].map fun line => (default, line)
    let t := (b.emitAll entries).lines.table
    let u := (b.emitAll entries).build.lines
    t.checkpointPcs = [3, 4, 7] ∧ t.byte? 4 = some (-128) ∧
      (∃ next, t.checkpointPcs[2]? = some next ∧ next ≤ 4 + 3) ∧
      (u.window 2).size = 3 ∧ (∀ pc, (u.window pc).size ≤ 3) ∧ u.estimate 6 = 1 ∧
      ∃ start, u.checkpointPcs[1]? = some start ∧ start ≤ 6 := by
  intro b entries t u
  obtain ⟨hstride, -, -, hbyte, -, hnext, hlookup⟩ :=
    emitAll_keeps_pace (b := b) 3 10 rfl rfl entries
  have hpcs : t.checkpointPcs = [3, 4, 7] := by decide
  have hguess : u.estimate 6 = 1 := by decide
  refine ⟨hpcs, (hbyte 4).2 (by rw [hpcs]; decide), ?_, by decide, fun pc => ?_, hguess, ?_⟩
  · have hthird := hnext 1 4 (by rw [hpcs]; rfl) (by decide)
    rwa [hstride] at hthird
  · have hshort := (hlookup pc).1
    rwa [hstride] at hshort
  · have hstart := (hlookup 6).2 3 (by decide) (by decide)
    rwa [hguess] at hstart

end Builder

end VmInspect
