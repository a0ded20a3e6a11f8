import Mathlib.Data.List.Sort
import VmInspect.Proofs.Lines.RoundTrip

/-!
# The lines with instructions

The lines that hold an instruction are collected by one more walk over the steps.  It carries the
current line itself and asks for a lookup at checkpoints only.  This file proves that it visits the
lines that lookups give:

* `LineTable.linesFrom_eq` — in a well-formed table the walk visits the lines of the instructions, one
  after the other.
* `LineTable.mem_validLines?_iff` — what is reported are those lines in ascending order, each of them
  once, with or without the line of the first instruction.
* `Builder.validLines?_build_emitAll` — for a function that was built by emitting instructions they
  are the lines that were given with them.
-/

namespace VmInspect

/-! ## Neighbours that repeat -/

theorem mem_loop_eraseReps {x : Int} (l : List Int) (a : Int) (acc : List Int) :
    x ∈ List.eraseRepsBy.loop (· == ·) a l acc ↔ x = a ∨ x ∈ l ∨ x ∈ acc := by
  induction l generalizing a acc with
  | nil => simp [List.eraseRepsBy.loop, or_comm]
  | cons b l ih =>
    rw [List.eraseRepsBy.loop]
    split
    · rename_i heq
      obtain rfl : a = b := eq_of_beq heq
      rw [ih, List.mem_cons]
      tauto
    · rw [ih, List.mem_cons, List.mem_cons]
      tauto

/-- What is kept so far is descending, since it is turned round at the end. -/
theorem pairwise_loop_eraseReps (l : List Int) (a : Int) (acc : List Int)
    (hl : (a :: l).Pairwise (· ≤ ·)) (hacc : (a :: acc).Pairwise (· > ·)) :
    (List.eraseRepsBy.loop (· == ·) a l acc).Pairwise (· < ·) := by
  induction l generalizing a acc with
  | nil => exact List.pairwise_reverse.2 hacc
  | cons b l ih =>
    obtain ⟨hle, htail⟩ := List.pairwise_cons.1 hl
    rw [List.eraseRepsBy.loop]
    split
    · exact ih a acc (List.pairwise_cons.2 ⟨fun c hc => hle c (List.mem_cons_of_mem b hc),
        (List.pairwise_cons.1 htail).2⟩) hacc
    · rename_i hne
      have hlt : a < b := lt_of_le_of_ne (hle b (List.mem_cons_self ..)) (by simpa using hne)
      refine ih b (a :: acc) htail (List.pairwise_cons.2 ⟨fun c hc => ?_, hacc⟩)
      rcases List.mem_cons.1 hc with rfl | hc
      · exact hlt
      · exact lt_trans ((List.pairwise_cons.1 hacc).1 c hc) hlt

theorem mem_eraseReps {x : Int} {l : List Int} : x ∈ l.eraseReps ↔ x ∈ l := by
  cases l with
  | nil => rfl
  | cons a l => rw [List.eraseReps, List.eraseRepsBy, mem_loop_eraseReps]; simp

/-- A list in ascending order has no members twice once neighbours do not repeat. -/
theorem pairwise_eraseReps {l : List Int} (h : l.Pairwise (· ≤ ·)) :
    l.eraseReps.Pairwise (· < ·) := by
  cases l with
  | nil => exact List.Pairwise.nil
  | cons a l => exact pairwise_loop_eraseReps l a [] h (List.pairwise_singleton _ _)

namespace LineTable

variable {t : LineTable}

/-! ## The walk -/

/-- The walk goes on to the line of the next instruction, at a checkpoint by a lookup. -/
theorem nextLine_lineAfter (h : t.WellFormed) {pc : Nat} (hpc : pc < t.steps.size) :
    t.nextLine (t.lineAfter pc) pc = t.lineAfter (pc + 1) := by
  have hstep : t.steps[pc]? = some t.steps[pc] := Array.getElem?_eq_getElem hpc
  rw [nextLine, hstep]
  cases hs : t.steps[pc] with
  | delta d =>
    rw [hs] at hstep
    rw [lineAfter_succ, stepLine_delta hstep]
  | checkpoint => simp only [line?_eq_lineAfter h hpc, Option.getD_some]

/-- The walk visits the lines of the instructions, one after the other. -/
theorem linesFrom_eq (h : t.WellFormed) (pc n : Nat) (hn : t.steps.size - pc = n) :
    t.linesFrom (t.lineAfter pc) pc =
      (List.range' pc n).map fun k => t.lineAfter (k + 1) := by
  induction n generalizing pc with
  | zero =>
    rw [linesFrom, dif_neg (by omega)]
    rfl
  | succ n ih =>
    have hpc : pc < t.steps.size := by omega
    have hrest := ih (pc + 1) (by omega)
    rw [linesFrom, dif_pos hpc]
    simp only [nextLine_lineAfter h hpc]
    rw [hrest, List.range'_succ, List.map_cons]

/-- What is reported is what the walk visits, with or without its first line. -/
theorem validLines?_eq (h : t.WellFormed) (hpresent : t.isPresent = true) (skipFirst : Bool) :
    t.validLines? skipFirst = some ((((List.range' skipFirst.toNat
      (t.steps.size - skipFirst.toNat)).map fun pc => t.lineAfter (pc + 1)).mergeSort
        (· ≤ ·)).eraseReps) := by
  have hvisited := linesFrom_eq h 0 t.steps.size rfl
  rw [lineAfter_zero] at hvisited
  rw [validLines?, if_pos hpresent, hvisited]
  cases skipFirst with
  | false => rfl
  | true =>
    simp only [if_true]
    rw [← List.map_drop, List.drop_range', Nat.zero_add]
    rfl

/-- The lines reported are those that lookups give, in ascending order and each of them once. -/
theorem mem_validLines?_iff (h : t.WellFormed) (hpresent : t.isPresent = true) (skipFirst : Bool) :
    ∃ lines, t.validLines? skipFirst = some lines ∧ lines.Pairwise (· < ·) ∧
      ∀ line, line ∈ lines ↔
        ∃ pc < t.steps.size, (skipFirst = true → 1 ≤ pc) ∧ t.line? pc = some line := by
  refine ⟨_, validLines?_eq h hpresent skipFirst,
    pairwise_eraseReps List.sortedLE_mergeSort.pairwise, fun line => ?_⟩
  have hskip : ∀ pc, (skipFirst = true → 1 ≤ pc) ↔ skipFirst.toNat ≤ pc := by
    intro pc
    cases skipFirst <;> simp
  rw [mem_eraseReps, List.mem_mergeSort, List.mem_map]
  constructor
  · rintro ⟨pc, hpc, rfl⟩
    rw [List.mem_range'_1] at hpc
    have hlt : pc < t.steps.size := by omega
    exact ⟨pc, hlt, (hskip pc).2 hpc.1, line?_eq_lineAfter h hlt⟩
  · rintro ⟨pc, hlt, hfirst, hline⟩
    have hle := (hskip pc).1 hfirst
    rw [line?_eq_lineAfter h hlt] at hline
    exact ⟨pc, List.mem_range'_1.2 ⟨hle, by omega⟩, Option.some.inj hline⟩

end LineTable

/-! ## Built functions -/

namespace LineWriter.Records

variable {w : LineWriter} {lines : List Int}

/-- Looked up for an instruction is the line that the writer was told for it. -/
theorem line? (h : w.Records lines) {i : Nat} (hi : i < lines.length) :
    w.table.line? i = some lines[i] := by
  rw [LineTable.line?_eq_lineAfter h.wellFormed (h.size ▸ hi), h.visits i hi]

theorem isPresent (h : w.Records lines) (hne : lines ≠ []) : w.table.isPresent = true := by
  have hsize : w.table.steps.size ≠ 0 := by
    rw [h.size]
    exact fun hzero => hne (List.length_eq_zero_iff.1 hzero)
  simpa [LineTable.isPresent] using hsize

end LineWriter.Records

namespace Builder

theorem isVararg_emitAll (entries : List (Instruction × Int)) :
    ∀ b : Builder, (b.emitAll entries).proto.isVararg = b.proto.isVararg := by
  induction entries with
  | nil => intro b; rfl
  | cons entry entries ih => intro b; exact ih (b.emit entry.1 entry.2)

/-- The table of a finished function that keeps line information is the one that was written. -/
theorem lines_build {b : Builder} (hkeep : b.keepLines = true) : b.build.lines = b.lines.table := by
  rw [build, hkeep, LineWriter.finish, if_pos rfl]

/-- **The valid lines are the emitted lines.**  A builder that has not begun to write its line table
keeps line information, and is given instructions with their lines.  The lines reported for the
finished function are, in ascending order and each of them once, those that were given with an
instruction, other than the first one if the function has extra arguments. -/
theorem validLines?_build_emitAll {b : Builder} (stride : Nat) (defined : Int)
    (hfresh : b.lines = (LineWriter.empty.withStride stride).withDefinedLine defined)
    (hkeep : b.keepLines = true) {entries : List (Instruction × Int)} (hne : entries ≠ []) :
    ∃ lines, (b.emitAll entries).build.validLines? = some lines ∧ lines.Pairwise (· < ·) ∧
      ∀ line, line ∈ lines ↔
        ∃ i, ∃ h : i < entries.length, (b.proto.isVararg = true → 1 ≤ i) ∧ entries[i].2 = line := by
  have hrecords : (b.emitAll entries).lines.Records (entries.map Prod.snd) := by
    rw [lines_emitAll, hfresh]
    exact (LineWriter.Records.of_empty stride defined).foldl_record _
  have htable : (b.emitAll entries).build.lines = (b.emitAll entries).lines.table :=
    lines_build (by rw [keepLines_emitAll, hkeep])
  have hvararg : (b.emitAll entries).build.isVararg = b.proto.isVararg := isVararg_emitAll entries b
  obtain ⟨lines, hlines, hsorted, hmem⟩ := LineTable.mem_validLines?_iff hrecords.wellFormed
    (hrecords.isPresent (by simpa using hne)) b.proto.isVararg
  refine ⟨lines, by rw [Proto.validLines?, htable, hvararg, hlines], hsorted, fun line => ?_⟩
  have hline : ∀ i (h : i < entries.length),
      (b.emitAll entries).lines.table.line? i = some entries[i].2 := by
    intro i hi
    rw [hrecords.line? (by simpa using hi), List.getElem_map]
  rw [hmem, hrecords.size, List.length_map]
  constructor
  · rintro ⟨i, hi, hfirst, hlookup⟩
    exact ⟨i, hi, hfirst, Option.some.inj ((hline i hi).symm.trans hlookup)⟩
  · rintro ⟨i, hi, hfirst, rfl⟩
    exact ⟨i, hi, hfirst, hline i hi⟩

/-- The first instruction starts the walk at a checkpoint on line 300, which no other instruction is
on; with a stride of two the third one has a checkpoint too. -/
theorem validLines?_build_emitAll_vararg :
    let b := ((empty.withStride 2).withLines 10 400).withVararg
    let entries : List (Instruction × Int) := [(.abc .varargPrep 0 0 0, 300),
      (.abc .move 0 0 0, 305), (.abc .move 0 0 0, 304), (.abc .return0 0 0 0, 305)]
    let p := (b.emitAll entries).build
    p.lines.steps = #[.checkpoint, .delta 5, .checkpoint, .delta 1] ∧
      ∃ lines, p.validLines? = some lines ∧ lines.Pairwise (· < ·) ∧ 305 ∈ lines ∧ 304 ∈ lines ∧
        300 ∉ lines := by
  intro b entries p
  have hne : entries ≠ [] := List.cons_ne_nil _ _
  obtain ⟨lines, hlines, hsorted, hmem⟩ := validLines?_build_emitAll (b := b) 2 10 rfl rfl hne
  refine ⟨rfl, lines, hlines, hsorted, (hmem 305).2 ?_, (hmem 304).2 ?_, fun h => ?_⟩
  · exact ⟨1, by decide, fun _ => Nat.le_refl 1, rfl⟩
  · exact ⟨2, by decide, fun _ => by decide, rfl⟩
  · obtain ⟨i, hi, hfirst, hline⟩ := (hmem 300).1 h
    have hpos := hfirst rfl
    have hlength : entries.length = 4 := rfl
    obtain rfl | rfl | rfl : i = 1 ∨ i = 2 ∨ i = 3 := by omega
    all_goals simp [entries] at hline

end Builder

end VmInspect
