import VmInspect.Bytecode.LineTable

/-!
# Looking a line up and walking to it

A lookup starts at a checkpoint that it finds by a guess and two corrections.  Walking needs no
search: it starts at the defined line and follows the steps one by one, taking over the recorded
line wherever a checkpoint stands.  This file shows that both give the same line.

* `LineTable.WellFormed` — the checkpoints stand in the order of their instructions, and the steps
  are marked as checkpoints exactly there.
* `checkpointFor?_eq_some`, `checkpointFor?_eq_none` — whatever the stride, the search ends at the
  last checkpoint that is not past the instruction.
* `line?_eq_lineAfter` — in a well-formed table a lookup gives the line that walking reaches.
-/

namespace VmInspect

namespace LineTable

/-! ## Walking -/

/-- The line that is recorded for an instruction, if it has a checkpoint. -/
def recordedLine? (t : LineTable) (pc : Nat) : Option Int :=
  (t.checkpoints.find? (·.pc == pc)).map Checkpoint.line

/-- The line after one more step. -/
def stepLine (t : LineTable) (line : Int) (pc : Nat) : Int :=
  match t.steps[pc]? with
  | some (.delta d) => line + d
  | some .checkpoint => (t.recordedLine? pc).getD line
  | none => line

/-- The line reached from the defined line by the first steps. -/
def lineAfter (t : LineTable) : Nat → Int
  | 0 => t.definedLine
  | n + 1 => t.stepLine (t.lineAfter n) n

@[simp] theorem lineAfter_zero (t : LineTable) : t.lineAfter 0 = t.definedLine := rfl

theorem lineAfter_succ (t : LineTable) (n : Nat) :
    t.lineAfter (n + 1) = t.stepLine (t.lineAfter n) n := rfl

theorem stepLine_delta {t : LineTable} {pc : Nat} {d : Int} (h : t.steps[pc]? = some (.delta d))
    (line : Int) : t.stepLine line pc = line + d := by
  rw [stepLine, h]

theorem stepLine_checkpoint {t : LineTable} {pc : Nat} (h : t.steps[pc]? = some .checkpoint)
    {recorded : Int} (hr : t.recordedLine? pc = some recorded) (line : Int) :
    t.stepLine line pc = recorded := by
  rw [stepLine, h]
  simp only [hr, Option.getD_some]

/-- Walking looks at nothing but the defined line and the steps it takes. -/
theorem lineAfter_congr {t u : LineTable} (hd : t.definedLine = u.definedLine) {n : Nat}
    (h : ∀ pc < n, t.steps[pc]? = u.steps[pc]? ∧ t.recordedLine? pc = u.recordedLine? pc) :
    t.lineAfter n = u.lineAfter n := by
  induction n with
  | zero => exact hd
  | succ n ih =>
    obtain ⟨hs, hr⟩ := h n (Nat.lt_succ_self n)
    have hn : t.lineAfter n = u.lineAfter n := ih fun pc hpc => h pc (Nat.lt_succ_of_lt hpc)
    rw [lineAfter_succ, lineAfter_succ, hn, stepLine, stepLine, hs, hr]

/-! ## Well-formed tables -/

/-- The checkpoints stand in the order of their instructions, and a step is marked as a checkpoint
exactly where there is one. -/
structure WellFormed (t : LineTable) : Prop where
  sorted : ∀ (i j : Nat) (a b : Checkpoint), i < j → t.checkpoints[i]? = some a →
    t.checkpoints[j]? = some b → a.pc < b.pc
  marked : ∀ pc : Nat, t.steps[pc]? = some .checkpoint ↔ ∃ c ∈ t.checkpoints, c.pc = pc

namespace WellFormed

variable {t : LineTable} (h : t.WellFormed)
include h

/-- Checkpoints further on belong to later instructions. -/
theorem pc_le_of_le {i j : Nat} {a b : Checkpoint} (hij : i ≤ j)
    (ha : t.checkpoints[i]? = some a) (hb : t.checkpoints[j]? = some b) : a.pc ≤ b.pc := by
  rcases Nat.lt_or_eq_of_le hij with hlt | rfl
  · exact Nat.le_of_lt (h.sorted i j a b hlt ha hb)
  · exact Nat.le_of_eq (congrArg Checkpoint.pc (Option.some.inj (ha.symm.trans hb)))

/-- An instruction has at most one checkpoint. -/
theorem eq_of_pc_eq {a b : Checkpoint} (ha : a ∈ t.checkpoints) (hb : b ∈ t.checkpoints)
    (hpc : a.pc = b.pc) : a = b := by
  obtain ⟨i, hi⟩ := Array.mem_iff_getElem?.1 ha
  obtain ⟨j, hj⟩ := Array.mem_iff_getElem?.1 hb
  rcases Nat.lt_trichotomy i j with hij | rfl | hij
  · have := h.sorted i j a b hij hi hj
    omega
  · exact Option.some.inj (hi.symm.trans hj)
  · have := h.sorted j i b a hij hj hi
    omega

/-- The line of a checkpoint is the one that walking takes over. -/
theorem recordedLine?_of_mem {c : Checkpoint} (hc : c ∈ t.checkpoints) :
    t.recordedLine? c.pc = some c.line := by
  cases hf : t.checkpoints.find? (·.pc == c.pc) with
  | none =>
    have := Array.find?_eq_none.1 hf c hc
    simp at this
  | some a =>
    have hpc : a.pc = c.pc := by simpa using Array.find?_some hf
    have : a = c := h.eq_of_pc_eq (Array.mem_of_find?_eq_some hf) hc hpc
    rw [recordedLine?, hf, this, Option.map_some]

/-- Walking past a checkpoint reaches its line. -/
theorem lineAfter_checkpoint {c : Checkpoint} (hc : c ∈ t.checkpoints) :
    t.lineAfter (c.pc + 1) = c.line := by
  have hs : t.steps[c.pc]? = some .checkpoint := (h.marked c.pc).2 ⟨c, hc, rfl⟩
  rw [lineAfter_succ, stepLine_checkpoint hs (h.recordedLine?_of_mem hc)]

end WellFormed

/-! ## The search for the checkpoint -/

/-- Going down ends at a checkpoint that is not past the instruction, if the first one is not. -/
theorem exists_retreat {t : LineTable} {pc : Nat} {first : Checkpoint}
    (h0 : t.checkpoints[0]? = some first) (hpc : first.pc ≤ pc) :
    ∀ i < t.checkpoints.size, ∃ c, t.checkpoints[t.retreat pc i]? = some c ∧ c.pc ≤ pc := by
  intro i
  induction i with
  | zero => intro _; exact ⟨first, h0, hpc⟩
  | succ i ih =>
    intro hi
    have hc : t.checkpoints[i + 1]? = some t.checkpoints[i + 1] := Array.getElem?_eq_getElem hi
    rw [retreat, hc]
    by_cases hlt : pc < t.checkpoints[i + 1].pc
    · simp only [Option.any_some, hlt, decide_true, if_true]
      exact ih (Nat.lt_of_succ_lt hi)
    · refine ⟨t.checkpoints[i + 1], ?_, Nat.le_of_not_lt hlt⟩
      simp only [Option.any_some, hlt, decide_false]
      exact hc

/-- Going up stays at checkpoints that are not past the instruction. -/
theorem exists_advance {t : LineTable} {pc : Nat} :
    ∀ (n i : Nat) {c : Checkpoint}, t.checkpoints[i]? = some c → c.pc ≤ pc →
      ∃ c', t.checkpoints[t.advance pc i n]? = some c' ∧ c'.pc ≤ pc := by
  intro n
  induction n with
  | zero => intro i c hc hle; exact ⟨c, hc, hle⟩
  | succ n ih =>
    intro i c hc hle
    rw [advance]
    cases hnext : t.checkpoints[i + 1]? with
    | none => exact ⟨c, by simpa using hc, hle⟩
    | some a =>
      by_cases ha : a.pc ≤ pc
      · simp only [Option.any_some, ha, decide_true, if_true]
        exact ih (i + 1) hnext ha
      · simp only [Option.any_some, ha, decide_false]
        exact ⟨c, by simpa using hc, hle⟩

/-- Going up ends only in front of a checkpoint that is past the instruction. -/
theorem lt_of_advance_succ {t : LineTable} {pc : Nat} :
    ∀ (n i : Nat), t.checkpoints.size ≤ i + 1 + n → ∀ c : Checkpoint,
      t.checkpoints[t.advance pc i n + 1]? = some c → pc < c.pc := by
  intro n
  induction n with
  | zero =>
    intro i hi c hc
    have : i + 1 < t.checkpoints.size := (Array.getElem?_eq_some_iff.1 hc).1
    omega
  | succ n ih =>
    intro i hi c hc
    rw [advance] at hc
    cases hnext : t.checkpoints[i + 1]? with
    | none => simp [hnext] at hc
    | some a =>
      by_cases ha : a.pc ≤ pc
      · simp only [hnext, Option.any_some, ha, decide_true, if_true] at hc
        exact ih (i + 1) (by omega) c hc
      · simp only [hnext, Option.any_some, ha, decide_false] at hc
        obtain rfl : a = c := by simpa [hnext] using hc
        exact Nat.lt_of_not_le ha

theorem estimate_lt_size (t : LineTable) (pc : Nat) (h : 0 < t.checkpoints.size) :
    t.estimate pc < t.checkpoints.size := by
  rw [estimate]
  omega

/-- The search ends at the last checkpoint that is not past the instruction. -/
theorem checkpointFor?_eq_some {t : LineTable} (h : t.WellFormed) {pc : Nat} {c : Checkpoint}
    (hc : t.checkpointFor? pc = some c) :
    c ∈ t.checkpoints ∧ c.pc ≤ pc ∧ ∀ a ∈ t.checkpoints, a.pc ≤ pc → a.pc ≤ c.pc := by
  cases h0 : t.checkpoints[0]? with
  | none => rw [checkpointFor?, h0] at hc; simp at hc
  | some first =>
    rw [checkpointFor?, h0] at hc
    simp only at hc
    split at hc
    · rename_i hfirst
      have hsize : 0 < t.checkpoints.size := (Array.getElem?_eq_some_iff.1 h0).1
      obtain ⟨low, hlow, hlowpc⟩ :=
        exists_retreat h0 hfirst (t.estimate pc) (t.estimate_lt_size pc hsize)
      obtain ⟨a, ha, hapc⟩ := exists_advance t.checkpoints.size _ hlow hlowpc
      have hac : a = c := Option.some.inj (ha.symm.trans hc)
      subst hac
      refine ⟨Array.mem_of_getElem? ha, hapc, fun b hb hbpc => ?_⟩
      obtain ⟨j, hj⟩ := Array.mem_iff_getElem?.1 hb
      rcases Nat.lt_or_ge (t.checkpointIndex pc) j with hlt | hge
      · -- a checkpoint behind the one found is past the instruction
        have hnext : t.checkpointIndex pc + 1 < t.checkpoints.size := by
          have := (Array.getElem?_eq_some_iff.1 hj).1
          omega
        have hpast := lt_of_advance_succ t.checkpoints.size _ (by omega) _
          (Array.getElem?_eq_getElem hnext)
        have := h.pc_le_of_le hlt (Array.getElem?_eq_getElem hnext) hj
        omega
      · exact h.pc_le_of_le hge hj ha
    · simp at hc

/-- The search finds nothing only when every checkpoint is past the instruction. -/
theorem checkpointFor?_eq_none {t : LineTable} (h : t.WellFormed) {pc : Nat}
    (hc : t.checkpointFor? pc = none) : ∀ a ∈ t.checkpoints, pc < a.pc := by
  intro a ha
  obtain ⟨j, hj⟩ := Array.mem_iff_getElem?.1 ha
  have hsize : 0 < t.checkpoints.size := by
    have := (Array.getElem?_eq_some_iff.1 hj).1
    omega
  have h0 : t.checkpoints[0]? = some t.checkpoints[0] := Array.getElem?_eq_getElem hsize
  rw [checkpointFor?, h0] at hc
  simp only at hc
  split at hc
  · rename_i hfirst
    obtain ⟨low, hlow, hlowpc⟩ :=
      exists_retreat h0 hfirst (t.estimate pc) (t.estimate_lt_size pc hsize)
    obtain ⟨b, hb, -⟩ := exists_advance t.checkpoints.size _ hlow hlowpc
    exact absurd (hb.symm.trans hc) (by simp)
  · rename_i hfirst
    have := h.pc_le_of_le (Nat.zero_le j) h0 hj
    omega

/-! ## The lookup -/

@[simp] theorem total_empty : total #[] = 0 := rfl

theorem total_push (steps : Array LineStep) (s : LineStep) :
    total (steps.push s) = total steps + s.amount := by
  rw [total, Array.foldl_push, total]

/-- Where only distances are recorded, walking adds them up. -/
theorem lineAfter_eq_add_total {t : LineTable} {start : Nat} :
    ∀ {stop : Nat}, start ≤ stop → stop ≤ t.steps.size →
      (∀ pc, start ≤ pc → pc < stop → t.steps[pc]? ≠ some .checkpoint) →
      t.lineAfter stop = t.lineAfter start + total (t.steps.extract start stop) := by
  intro stop
  induction stop with
  | zero =>
    intro hle _ _
    obtain rfl : start = 0 := Nat.le_zero.1 hle
    simp
  | succ n ih =>
    intro hle hsize hno
    rcases Nat.lt_or_eq_of_le hle with hlt | rfl
    · have hn : n < t.steps.size := by omega
      have hstep : t.steps[n]? = some t.steps[n] := Array.getElem?_eq_getElem hn
      have hrest := ih (by omega) (by omega) fun pc h1 h2 => hno pc h1 (by omega)
      rw [lineAfter_succ, hrest, Array.extract_succ_right hlt hn, total_push]
      cases hs : t.steps[n] with
      | delta d =>
        rw [hs] at hstep
        rw [stepLine_delta hstep]
        simp only [LineStep.amount]
        omega
      | checkpoint =>
        rw [hs] at hstep
        exact absurd hstep (hno n (by omega) (Nat.lt_succ_self n))
    · rw [Array.extract_eq_empty_of_le (by omega), total_empty, Int.add_zero]

/-- No step that a lookup adds up is a checkpoint. -/
theorem not_checkpoint_of_windowStart_le {t : LineTable} (h : t.WellFormed) {pc : Nat} :
    ∀ k, t.windowStart pc ≤ k → k ≤ pc → t.steps[k]? ≠ some .checkpoint := by
  intro k hk hle hmark
  obtain ⟨a, ha, rfl⟩ := (h.marked k).1 hmark
  rw [windowStart] at hk
  cases hc : t.checkpointFor? pc with
  | none =>
    have := checkpointFor?_eq_none h hc a ha
    omega
  | some c =>
    rw [hc] at hk
    have := (checkpointFor?_eq_some h hc).2.2 a ha hle
    simp only at hk
    omega

theorem windowStart_le {t : LineTable} (h : t.WellFormed) (pc : Nat) :
    t.windowStart pc ≤ pc + 1 := by
  rw [windowStart]
  cases hc : t.checkpointFor? pc with
  | none => exact Nat.zero_le _
  | some c => exact Nat.succ_le_succ (checkpointFor?_eq_some h hc).2.1

/-- A lookup counts from the line that walking has reached where its window starts. -/
theorem baseLine_eq_lineAfter {t : LineTable} (h : t.WellFormed) (pc : Nat) :
    t.baseLine pc = t.lineAfter (t.windowStart pc) := by
  rw [baseLine, windowStart]
  cases hc : t.checkpointFor? pc with
  | none => rfl
  | some c => exact (h.lineAfter_checkpoint (checkpointFor?_eq_some h hc).1).symm

/-- A lookup in a well-formed table gives the line that walking reaches. -/
theorem line?_eq_lineAfter {t : LineTable} (h : t.WellFormed) {pc : Nat}
    (hpc : pc < t.steps.size) : t.line? pc = some (t.lineAfter (pc + 1)) := by
  have hpresent : t.isPresent = true := by
    have : t.steps.size ≠ 0 := by omega
    simpa [isPresent] using this
  have hwalk := lineAfter_eq_add_total (windowStart_le h pc) (Nat.succ_le_of_lt hpc)
    fun k hk hlt => not_checkpoint_of_windowStart_le h k hk (Nat.le_of_lt_succ hlt)
  rw [line?, hpresent, if_pos rfl, window, if_pos hpc, hwalk, baseLine_eq_lineAfter h]

end LineTable

end VmInspect
