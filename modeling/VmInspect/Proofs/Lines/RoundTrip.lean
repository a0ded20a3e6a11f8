import VmInspect.Bytecode.Builder
import VmInspect.Proofs.Lines.Walk

/-!
# A written line table gives the lines back

A writer chooses for every instruction between a distance and a checkpoint, and each choice is kept
as one signed byte.  The main result, `line?_build_emitAll`, says that nothing of this can be seen
from outside: whatever the stride, the line looked up for an instruction is the line it was emitted
with, also when the table is read back from its bytes.

The proof keeps one invariant along the writing, `LineWriter.Records`: the table is well formed,
walking through it visits the lines told so far, and every step is the one that its byte stands for.
-/

namespace VmInspect

/-! ## Steps as bytes -/

namespace LineStep

/-- The step that is read back when this one was kept as a signed byte. -/
def stored (s : LineStep) : LineStep := ofByte (s.byte.bmod 256)

@[simp] theorem stored_checkpoint : checkpoint.stored = checkpoint := by decide

/-- A short distance survives as a byte: it does not wrap, and it is not taken for a checkpoint. -/
theorem stored_delta {d : Int} (h : d.natAbs < LineWriter.deltaLimit) :
    (delta d).stored = delta d := by
  rw [LineWriter.deltaLimit] at h
  have hd : d.bmod 256 = d := by
    rw [Int.bmod_def]
    split <;> omega
  rw [stored, byte, hd, ofByte, checkpointByte, if_neg (by omega)]

end LineStep

namespace LineTable

/-- The table that is read back when every step was kept as a signed byte. -/
def stored (t : LineTable) : LineTable := { t with steps := t.steps.map LineStep.stored }

theorem stored_eq_self {t : LineTable} (h : ∀ s ∈ t.steps, s.stored = s) : t.stored = t := by
  have : t.steps.map LineStep.stored = t.steps := by
    rw [Array.map_congr_left (g := id) h, Array.map_id]
  rw [stored, this]

end LineTable

/-! ## One more line -/

namespace LineTable

variable {t u : LineTable} {s : LineStep}

/-- A step at the end of a table changes nothing in front of it. -/
theorem lineAfter_push (hd : u.definedLine = t.definedLine) (hs : u.steps = t.steps.push s)
    (hr : ∀ pc < t.steps.size, u.recordedLine? pc = t.recordedLine? pc) {n : Nat}
    (hn : n ≤ t.steps.size) : u.lineAfter n = t.lineAfter n := by
  refine lineAfter_congr hd fun pc hpc => ⟨?_, hr pc (Nat.lt_of_lt_of_le hpc hn)⟩
  rw [hs, Array.getElem?_push, if_neg (by omega)]

/-- All checkpoints belong to instructions of the table. -/
theorem WellFormed.pc_lt_size (h : t.WellFormed) {c : Checkpoint} (hc : c ∈ t.checkpoints) :
    c.pc < t.steps.size :=
  (Array.getElem?_eq_some_iff.1 ((h.marked c.pc).2 ⟨c, hc, rfl⟩)).1

/-- A distance at the end keeps a table well formed. -/
theorem WellFormed.push_delta (h : t.WellFormed) (d : Int) :
    WellFormed { t with steps := t.steps.push (.delta d) } where
  sorted := h.sorted
  marked pc := by
    rw [← h.marked pc, Array.getElem?_push]
    by_cases hpc : pc = t.steps.size
    · subst hpc
      simp
    · rw [if_neg hpc]

theorem lineAfter_push_delta (t : LineTable) (d : Int) :
    lineAfter { t with steps := t.steps.push (.delta d) } (t.steps.size + 1) =
      t.lineAfter t.steps.size + d := by
  have hfront := lineAfter_push (t := t) (u := { t with steps := t.steps.push (.delta d) })
    rfl rfl (fun _ _ => rfl) (Nat.le_refl _)
  rw [lineAfter_succ, stepLine_delta Array.getElem?_push_size, hfront]

/-- So does a checkpoint at the end. -/
theorem WellFormed.push_checkpoint (h : t.WellFormed) (line : Int) :
    WellFormed { t with
      steps := t.steps.push .checkpoint
      checkpoints := t.checkpoints.push ⟨t.steps.size, line⟩ } where
  sorted i j a b hij ha hb := by
    rw [Array.getElem?_push] at ha hb
    have hj : j ≤ t.checkpoints.size := by
      split at hb
      · omega
      · exact Nat.le_of_lt (Array.getElem?_eq_some_iff.1 hb).1
    rw [if_neg (by omega)] at ha
    split at hb
    · rw [← Option.some.inj hb]
      exact h.pc_lt_size (Array.mem_of_getElem? ha)
    · exact h.sorted i j a b hij ha hb
  marked pc := by
    simp only [Array.getElem?_push, Array.mem_push]
    by_cases hpc : pc = t.steps.size
    · subst hpc
      simp only [if_true, true_iff]
      exact ⟨⟨t.steps.size, line⟩, Or.inr rfl, rfl⟩
    · rw [if_neg hpc, h.marked pc]
      constructor
      · rintro ⟨c, hc, rfl⟩
        exact ⟨c, Or.inl hc, rfl⟩
      · rintro ⟨c, hc | rfl, rfl⟩
        · exact ⟨c, hc, rfl⟩
        · exact absurd rfl hpc

theorem WellFormed.lineAfter_push_checkpoint (h : t.WellFormed) (line : Int) :
    lineAfter { t with
      steps := t.steps.push .checkpoint
      checkpoints := t.checkpoints.push ⟨t.steps.size, line⟩ } (t.steps.size + 1) = line :=
  (h.push_checkpoint line).lineAfter_checkpoint
    (c := ⟨t.steps.size, line⟩) Array.mem_push_self

/-- A checkpoint at the end leaves the lines recorded in front of it alone. -/
theorem recordedLine?_push_of_lt (t : LineTable) (steps : Array LineStep) (c : Checkpoint)
    {pc : Nat} (hpc : pc < c.pc) :
    recordedLine? { t with steps, checkpoints := t.checkpoints.push c } pc =
      t.recordedLine? pc := by
  have hne : (c.pc == pc) = false := by simpa using Nat.ne_of_gt hpc
  rw [recordedLine?, Array.find?_push, hne, recordedLine?]
  simp

end LineTable

namespace LineWriter

/-- The writer was told these lines: the table is well formed, walking through it visits the lines,
the last of which is remembered, and every step survives as a byte. -/
structure Records (w : LineWriter) (lines : List Int) : Prop where
  wellFormed : w.table.WellFormed
  size : w.table.steps.size = lines.length
  visits : ∀ i (h : i < lines.length), w.table.lineAfter (i + 1) = lines[i]
  previous : w.previousLine = w.table.lineAfter lines.length
  stored : ∀ s ∈ w.table.steps, s.stored = s

namespace Records

variable {w w' : LineWriter} {lines : List Int}

/-- A writer that put one more step behind its table, by which walking reaches a line, was told
that line too. -/
theorem push (h : w.Records lines) {line : Int} {s : LineStep} (hwf : w'.table.WellFormed)
    (hd : w'.table.definedLine = w.table.definedLine)
    (hs : w'.table.steps = w.table.steps.push s)
    (hr : ∀ pc < w.table.steps.size, w'.table.recordedLine? pc = w.table.recordedLine? pc)
    (hline : w'.table.lineAfter (lines.length + 1) = line) (hprev : w'.previousLine = line)
    (hstored : s.stored = s) : w'.Records (lines ++ [line]) where
  wellFormed := hwf
  size := by rw [hs, Array.size_push, h.size, List.length_append, List.length_singleton]
  visits i hi := by
    rw [List.length_append, List.length_singleton] at hi
    rcases Nat.lt_or_eq_of_le (Nat.le_of_lt_succ hi) with hlt | rfl
    · rw [List.getElem_append_left hlt, ← h.visits i hlt]
      exact LineTable.lineAfter_push hd hs hr (h.size ▸ hlt)
    · rw [List.getElem_append_right (Nat.le_refl _)]
      simpa using hline
  previous := by rw [hprev, List.length_append, List.length_singleton, hline]
  stored := by
    intro a ha
    rw [hs, Array.mem_push] at ha
    rcases ha with ha | rfl
    · exact h.stored a ha
    · exact hstored

/-- The step lemma: whichever way a line is recorded, the writer was told one line more. -/
theorem record (h : w.Records lines) (line : Int) : (w.record line).Records (lines ++ [line]) := by
  rw [LineWriter.record]
  split
  · rename_i hfits
    have hfits : (line - w.previousLine).natAbs < deltaLimit := by
      simp only [fits, Bool.and_eq_true, decide_eq_true_eq] at hfits
      exact hfits.1
    refine h.push (h.wellFormed.push_delta _) rfl rfl (fun _ _ => rfl) ?_ rfl
      (LineStep.stored_delta hfits)
    rw [recordDelta, ← h.size, LineTable.lineAfter_push_delta, h.size, ← h.previous]
    omega
  · refine h.push (h.wellFormed.push_checkpoint line) rfl rfl
      (fun pc hpc => LineTable.recordedLine?_push_of_lt _ _ _ hpc) ?_ rfl
      LineStep.stored_checkpoint
    rw [recordCheckpoint, ← h.size]
    exact h.wellFormed.lineAfter_push_checkpoint line

/-- A writer that has not begun was told nothing. -/
theorem of_empty (stride : Nat) (defined : Int) :
    ((empty.withStride stride).withDefinedLine defined).Records [] where
  wellFormed := ⟨by simp [withDefinedLine, withStride, empty],
    by simp [withDefinedLine, withStride, empty]⟩
  size := rfl
  visits i hi := absurd hi (Nat.not_lt_zero i)
  previous := rfl
  stored := by simp [withDefinedLine, withStride, empty]

/-- The run lemma: telling lines one after the other. -/
theorem foldl_record (told : List Int) :
    ∀ {w : LineWriter} {lines : List Int}, w.Records lines →
      (told.foldl LineWriter.record w).Records (lines ++ told) := by
  induction told with
  | nil => intro w lines h; simpa using h
  | cons line told ih =>
    intro w lines h
    have := ih (h.record line)
    rwa [List.append_assoc, List.singleton_append] at this

end Records

end LineWriter

/-! ## Emitting instructions -/

namespace Builder

/-- Add instructions with their lines, the first one first. -/
def emitAll (b : Builder) (entries : List (Instruction × Int)) : Builder :=
  entries.foldl (fun b entry => b.emit entry.1 entry.2) b

theorem lines_emitAll (entries : List (Instruction × Int)) :
    ∀ b : Builder, (b.emitAll entries).lines = (entries.map Prod.snd).foldl .record b.lines := by
  induction entries with
  | nil => intro b; rfl
  | cons entry entries ih => intro b; exact ih (b.emit entry.1 entry.2)

theorem code_emitAll (entries : List (Instruction × Int)) :
    ∀ b : Builder, (b.emitAll entries).proto.code =
      b.proto.code ++ (entries.map Prod.fst).toArray := by
  induction entries with
  | nil => intro b; simp [emitAll]
  | cons entry entries ih =>
    intro b
    have := ih (b.emit entry.1 entry.2)
    rw [show b.emitAll (entry :: entries) = (b.emit entry.1 entry.2).emitAll entries from rfl, this]
    simp [emit]

theorem keepLines_emitAll (entries : List (Instruction × Int)) :
    ∀ b : Builder, (b.emitAll entries).keepLines = b.keepLines := by
  induction entries with
  | nil => intro b; rfl
  | cons entry entries ih => intro b; exact ih (b.emit entry.1 entry.2)

/-- **Round trip.** Whatever the stride and the defined line, a function that was built by emitting
instructions with their lines has a line table that survives being kept as bytes, and each of its
instructions has the line it was emitted with. -/
theorem line?_build_emitAll (stride : Nat) (defined last : Int)
    (entries : List (Instruction × Int)) :
    let p := (((empty.withStride stride).withLines defined last).emitAll entries).build
    p.lines.stored = p.lines ∧ p.code.size = entries.length ∧
      ∀ i (h : i < entries.length),
        p.code[i]? = some entries[i].1 ∧ p.line? i = some entries[i].2 := by
  intro p
  have hwriter := (LineWriter.Records.of_empty stride defined).foldl_record (entries.map Prod.snd)
  have hlines : p.lines = ((entries.map Prod.snd).foldl LineWriter.record
      ((LineWriter.empty.withStride stride).withDefinedLine defined)).table := by
    show LineWriter.finish _ _ = _
    rw [lines_emitAll, keepLines_emitAll]
    rfl
  have hcode : p.code = (entries.map Prod.fst).toArray := by
    show (emitAll _ _).proto.code = _
    rw [code_emitAll]
    exact Array.empty_append
  rw [List.nil_append] at hwriter
  refine ⟨by rw [hlines]; exact LineTable.stored_eq_self hwriter.stored, by simp [hcode], ?_⟩
  intro i hi
  have hi' : i < (entries.map Prod.snd).length := by simpa using hi
  refine ⟨by simp [hcode, hi], ?_⟩
  rw [Proto.line?, hlines, LineTable.line?_eq_lineAfter hwriter.wellFormed (hwriter.size ▸ hi'),
    hwriter.visits i hi', List.getElem_map]

/-- At the edges: distances of 127 are kept, those of 128 in either direction are not, and a stride
of two has to put a checkpoint at the last instruction. -/
theorem line?_build_emitAll_edges :
    let p := (((empty.withStride 2).withLines 10 300).emitAll
      [(default, 137), (default, 265), (default, 137), (default, 10), (default, 10)]).build
    p.lines.steps = #[.delta 127, .checkpoint, .checkpoint, .delta (-127), .checkpoint] ∧
      p.line? 3 = some 10 ∧ p.line? 4 = some 10 :=
  ⟨rfl, ((line?_build_emitAll 2 10 300 _).2.2 3 (by decide)).2,
    ((line?_build_emitAll 2 10 300 _).2.2 4 (by decide)).2⟩

end Builder

end VmInspect
