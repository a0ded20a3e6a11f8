import VmInspect.Proofs.Lines.RoundTrip

/-!
# Lookups do not depend on the stride

The stride only tells a lookup where to begin its search for a checkpoint, and the distances between
two instructions only save it the trouble.  This file proves that neither is seen from outside:

* `LineWriter.wellFormed_record`, `Builder.wellFormed_build` — every table that is written is well
  formed, and so is the empty one that is left when line information is removed.
* `LineTable.line?_any_stride` — in a well-formed table a lookup with any stride gives the line that
  walking reaches, meets no checkpoint on its way, and passes through lines of the walk only.
* `LineTable.changed_eq` — comparing two instructions by their distances gives what comparing their
  lines gives.
* `LineTable.changed_any_stride` — so it does when the distances are read with one stride and the
  lines with another.
-/

namespace VmInspect

namespace LineTable

variable {t : LineTable}

/-- The stride does not matter to whether a table is well formed. -/
theorem WellFormed.withStride (h : t.WellFormed) (stride : Nat) :
    WellFormed { t with stride } :=
  ⟨h.sorted, h.marked⟩

/-- A table without steps and checkpoints is well formed. -/
theorem wellFormed_of_empty (hs : t.steps = #[]) (hc : t.checkpoints = #[]) : t.WellFormed where
  sorted := by simp [hc]
  marked := by simp [hs, hc]

end LineTable

/-! ## Written tables -/

/-- Whichever way a line is recorded, the table stays well formed. -/
theorem LineWriter.wellFormed_record {w : LineWriter} (h : w.table.WellFormed) (line : Int) :
    (w.record line).table.WellFormed := by
  rw [LineWriter.record]
  split
  · exact h.push_delta _
  · exact h.push_checkpoint line

/-- So it does when it is finished, also when line information is left out. -/
theorem LineWriter.wellFormed_finish {w : LineWriter} (h : w.table.WellFormed) (keepLines : Bool) :
    (w.finish keepLines).WellFormed := by
  rw [LineWriter.finish]
  split
  · exact h
  · exact LineTable.wellFormed_of_empty rfl rfl

/-- A function that is built by adding instructions to a fresh builder has a well-formed table. -/
theorem Builder.wellFormed_build {b : Builder} (h : b.lines.table.WellFormed)
    (entries : List (Instruction × Int)) : (b.emitAll entries).build.lines.WellFormed := by
  have htold : ∀ (lines : List Int) (w : LineWriter), w.table.WellFormed →
      (lines.foldl LineWriter.record w).table.WellFormed := by
    intro lines
    induction lines with
    | nil => intro w hw; exact hw
    | cons line lines ih => intro w hw; exact ih _ (LineWriter.wellFormed_record hw line)
  rw [Builder.build, lines_emitAll]
  exact LineWriter.wellFormed_finish (htold _ _ h) _

namespace LineTable

variable {t : LineTable}

/-! ## Lookups with any stride -/

/-- Walking does not look at the stride. -/
theorem lineAfter_withStride (t : LineTable) (stride n : Nat) :
    lineAfter { t with stride } n = t.lineAfter n :=
  lineAfter_congr (t := { t with stride }) (u := t) rfl fun _ _ => ⟨rfl, rfl⟩

/-- What a lookup has added up so far, at any point on its way, is the line that walking has
reached there. -/
theorem baseLine_add_total (h : t.WellFormed) {pc n : Nat} (hpc : pc < t.steps.size)
    (hstart : t.windowStart pc ≤ n) (hn : n ≤ pc + 1) :
    t.baseLine pc + total (t.steps.extract (t.windowStart pc) n) = t.lineAfter n := by
  rw [baseLine_eq_lineAfter h]
  refine (lineAfter_eq_add_total hstart (by omega) ?_).symm
  intro k hk hlt
  exact not_checkpoint_of_windowStart_le h k hk (by omega)

/-- None of the steps that a lookup adds up is a checkpoint. -/
theorem checkpoint_not_mem_window (h : t.WellFormed) {pc : Nat} (hpc : pc < t.steps.size) :
    LineStep.checkpoint ∉ t.window pc := by
  rw [window, if_pos hpc]
  intro hmem
  obtain ⟨k, hk, hstep⟩ := Array.mem_iff_getElem.1 hmem
  rw [Array.getElem_extract] at hstep
  rw [Array.size_extract] at hk
  have hsize : t.windowStart pc + k < t.steps.size := by omega
  have hle : t.windowStart pc + k ≤ pc := by omega
  refine not_checkpoint_of_windowStart_le h (t.windowStart pc + k) (by omega) hle ?_
  rw [← hstep]
  exact Array.getElem?_eq_getElem hsize

/-- **The shortcut is not seen.**  Read with any stride, also with one it was not written with, a
well-formed table gives for each instruction the line that walking from the first instruction
reaches.  No step that the lookup adds up is a checkpoint, and every line that it holds on its way is
one that walking visits. -/
theorem line?_any_stride (h : t.WellFormed) (stride : Nat) {pc : Nat} (hpc : pc < t.steps.size) :
    let u : LineTable := { t with stride }
    u.line? pc = some (t.lineAfter (pc + 1)) ∧ LineStep.checkpoint ∉ u.window pc ∧
      ∀ n, u.windowStart pc ≤ n → n ≤ pc + 1 →
        u.baseLine pc + total (u.steps.extract (u.windowStart pc) n) = t.lineAfter n := by
  intro u
  have hu : u.WellFormed := h.withStride stride
  refine ⟨?_, checkpoint_not_mem_window hu hpc, ?_⟩
  · rw [line?_eq_lineAfter hu hpc, lineAfter_withStride]
  · intro n hstart hn
    rw [baseLine_add_total hu hpc hstart hn, lineAfter_withStride]

/-- A table written with a stride of two, read with others.  With a stride of one the search begins
too far to the right, with one of a hundred too far to the left. -/
theorem line?_any_stride_guess :
    let t : LineTable := ([12, 500, 501, 7, 7, 300].foldl LineWriter.record
      ((LineWriter.empty.withStride 2).withDefinedLine 10)).table
    t.WellFormed ∧ t.checkpoints.toList.map Checkpoint.pc = [1, 3, 5] ∧
      ({ t with stride := 1 } : LineTable).estimate 2 = 1 ∧
      ({ t with stride := 1 } : LineTable).line? 2 = some 501 ∧
      ({ t with stride := 100 } : LineTable).estimate 4 = 0 ∧
      ({ t with stride := 100 } : LineTable).line? 4 = some 7 ∧
      ({ t with stride := 0 } : LineTable).line? 0 = some 12 := by
  intro t
  have ht : t.WellFormed :=
    ((LineWriter.Records.of_empty 2 10).foldl_record [12, 500, 501, 7, 7, 300]).wellFormed
  refine ⟨ht, rfl, by decide, ?_, by decide, ?_, ?_⟩
  · exact (line?_any_stride ht 1 (by decide)).1
  · exact (line?_any_stride ht 100 (by decide)).1
  · exact (line?_any_stride ht 0 (by decide)).1

/-! ## Comparing two instructions -/

/-- Where only distances lead from one instruction to a later one, they add up to the distance
between the lines. -/
theorem line?_of_distance? (h : t.WellFormed) {old new : Nat} (hlt : old < new) {d : Int}
    (hd : t.distance? old new = some d) :
    t.line? old = some (t.lineAfter (old + 1)) ∧
      t.line? new = some (t.lineAfter (old + 1) + d) := by
  rw [distance?] at hd
  split at hd
  · rename_i hnew
    simp only at hd
    split at hd
    · cases hd
    · rename_i hno
      obtain rfl := Option.some.inj hd
      refine ⟨line?_eq_lineAfter h (by omega), ?_⟩
      rw [line?_eq_lineAfter h hnew]
      refine congrArg some (lineAfter_eq_add_total (by omega) (by omega) ?_)
      intro k hk hkn hmark
      refine hno (Array.contains_iff_mem.2 (Array.mem_iff_getElem.2 ⟨k - (old + 1), ?_, ?_⟩))
      · rw [Array.size_extract]
        omega
      · rw [Array.getElem_extract]
        obtain ⟨hsize, heq⟩ := Array.getElem?_eq_some_iff.1 hmark
        rw [← heq]
        congr 1
        omega
  · cases hd

/-- Whether the lines of two instructions differ can be read off the distances between them. -/
theorem changed_eq (h : t.WellFormed) (old new : Nat) :
    t.changed old new = (t.line? old != t.line? new) := by
  rw [changed]
  by_cases hpresent : t.isPresent = true
  · simp only [hpresent, Bool.not_true, Bool.false_eq_true, if_false]
    by_cases hnear : old < new ∧ new - old < t.stride / 2
    · rw [if_pos hnear]
      cases hd : t.distance? old new with
      | none => rfl
      | some d =>
        obtain ⟨hold, hnew⟩ := line?_of_distance? h hnear.1 hd
        rw [hold, hnew]
        by_cases hzero : d = 0
        · simp [hzero]
        · have hne : some (t.lineAfter (old + 1)) ≠ some (t.lineAfter (old + 1) + d) := by
            intro heq
            have := Option.some.inj heq
            omega
          simp only [bne_iff_ne.2 hzero, bne_iff_ne.2 hne]
    · rw [if_neg hnear]
  · have hnone : ∀ pc, t.line? pc = none := fun pc => by rw [line?, if_neg hpresent]
    simp [hpresent, hnone]

/-! ### With different strides -/

/-- With any stride the search ends at the same checkpoint. -/
theorem checkpointFor?_withStride (h : t.WellFormed) (stride pc : Nat) :
    ({ t with stride } : LineTable).checkpointFor? pc = t.checkpointFor? pc := by
  have hu : ({ t with stride } : LineTable).WellFormed := h.withStride stride
  cases hc : t.checkpointFor? pc with
  | none =>
    cases hd : ({ t with stride } : LineTable).checkpointFor? pc with
    | none => rfl
    | some d =>
      obtain ⟨hmem, hle, -⟩ := checkpointFor?_eq_some hu hd
      have := checkpointFor?_eq_none h hc d hmem
      omega
  | some c =>
    obtain ⟨hmem, hle, hlast⟩ := checkpointFor?_eq_some h hc
    cases hd : ({ t with stride } : LineTable).checkpointFor? pc with
    | none =>
      have := checkpointFor?_eq_none hu hd c hmem
      omega
    | some d =>
      obtain ⟨hmem', hle', hlast'⟩ := checkpointFor?_eq_some hu hd
      have hpc : d.pc = c.pc := Nat.le_antisymm (hlast d hmem' hle') (hlast' c hmem hle)
      rw [h.eq_of_pc_eq hmem' hmem hpc]

/-- So the line is the same, also past the end of the table. -/
theorem line?_withStride (h : t.WellFormed) (stride pc : Nat) :
    ({ t with stride } : LineTable).line? pc = t.line? pc := by
  have hbase : ({ t with stride } : LineTable).baseLine pc = t.baseLine pc := by
    rw [baseLine, checkpointFor?_withStride h, baseLine]
  have hstart : ({ t with stride } : LineTable).windowStart pc = t.windowStart pc := by
    rw [windowStart, checkpointFor?_withStride h, windowStart]
  rw [line?, line?, hbase, window, window, hstart, isPresent, isPresent]

/-- Without steps no instruction has a line, whatever checkpoints there are. -/
theorem line?_of_no_steps (hs : t.steps = #[]) (pc : Nat) : t.line? pc = none := by
  rw [line?, isPresent, hs]
  rfl

theorem changed_of_no_steps (hs : t.steps = #[]) (old new : Nat) : t.changed old new = false := by
  rw [changed, isPresent, hs]
  rfl

/-- **Comparing two instructions agrees with looking both up.**  In a table that is well formed or
without steps, two instructions are found to lie on different lines exactly when the lines looked up
for them differ, whichever of them comes first, and also when they are the same one or past the end.
It does not matter with which strides the distances and the lines are read. -/
theorem changed_any_stride (h : t.WellFormed ∨ t.steps = #[]) (stride stride' old new : Nat) :
    let u : LineTable := { t with stride }
    let v : LineTable := { t with stride := stride' }
    u.changed old new = true ↔ v.line? old ≠ v.line? new := by
  intro u v
  rcases h with h | hs
  · have hsame : ∀ pc, u.line? pc = v.line? pc := fun pc =>
      (line?_withStride h stride pc).trans (line?_withStride h stride' pc).symm
    rw [changed_eq (t := u) (h.withStride stride), bne_iff_ne, hsame, hsame]
  · rw [changed_of_no_steps (t := u) hs, line?_of_no_steps (t := v) hs, line?_of_no_steps (t := v) hs]
    simp

/-- There and back between two lines, seen by the distances with a stride of sixteen, a pair with a
checkpoint on the way, a pair past the end, and a table that has lost its steps. -/
theorem changed_any_stride_back :
    let t : LineTable := ([12, 14, 12, 500, 500].foldl LineWriter.record
      ((LineWriter.empty.withStride 128).withDefinedLine 10)).table
    let u : LineTable := { t with stride := 16 }
    t.WellFormed ∧ u.distance? 0 2 = some 0 ∧ u.changed 0 2 = false ∧ u.changed 0 1 = true ∧
      u.distance? 2 4 = none ∧ u.changed 2 4 = true ∧ u.changed 7 5 = false ∧
      ({ t with steps := #[] } : LineTable).changed 0 3 = false := by
  intro t u
  have ht : t.WellFormed :=
    ((LineWriter.Records.of_empty 128 10).foldl_record [12, 14, 12, 500, 500]).wellFormed
  have hcompare := changed_any_stride (Or.inl ht) 16 0
  refine ⟨ht, by decide +kernel, ?_, ?_, by decide +kernel, ?_, ?_, ?_⟩
  · exact Bool.eq_false_iff.2 fun h => (hcompare 0 2).1 h (by decide)
  · exact (hcompare 0 1).2 (by decide)
  · exact (hcompare 2 4).2 (by decide)
  · exact Bool.eq_false_iff.2 fun h => (hcompare 7 5).1 h (by decide)
  · exact Bool.eq_false_iff.2 fun h =>
      (changed_any_stride (t := { t with steps := #[] }) (Or.inr rfl) 128 0 0 3).1 h (by decide)

end LineTable

end VmInspect
