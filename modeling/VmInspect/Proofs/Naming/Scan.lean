import VmInspect.Naming.Setter

/-!
# What the scan for a setter knows

The scan reads the code from the front and keeps two numbers.  This file says what they mean:

* `SetterScan.Reads` — the mark is the furthest target, among those not past the end, of the jumps
  read so far, and the setter is the last write read so far, unless a jump in front of it lands
  behind it.
* `SetterScan.reads_ofCode` — the scan of the first `n` instructions knows this of them.
* `findSetter?_eq_some_iff` — the same for the instructions in front of a place.
-/

namespace VmInspect

namespace Proto

/-- Whether the instruction at a place may write a register. -/
def WritesAt (p : Proto) (pc register : Nat) : Prop :=
  p.code[pc]?.any (fun i => (Effect.ofInstruction pc i).writes register) = true

instance (p : Proto) (pc register : Nat) : Decidable (p.WritesAt pc register) :=
  inferInstanceAs (Decidable (_ = true))

/-- The target of the jump at a place, if there is a jump. -/
def jumpAt? (p : Proto) (pc : Nat) : Option Int :=
  p.code[pc]?.bind fun i => (Effect.ofInstruction pc i).target?

/-- An instruction is the last one to write a register among the first `n`. -/
def LastWrite (p : Proto) (register n pc : Nat) : Prop :=
  pc < n ∧ p.WritesAt pc register ∧ ∀ k, pc < k → k < n → ¬ p.WritesAt k register

/-- No jump in front of an instruction lands behind it, jumps past the end aside. -/
def NotJumpedOver (p : Proto) (last pc : Nat) : Prop :=
  ∀ k < pc, ∀ target, p.jumpAt? k = some target → target ≤ Place.signed last → target ≤ pc

theorem writesAt_of_getElem? {p : Proto} {pc : Nat} {i : Instruction} (h : p.code[pc]? = some i)
    (register : Nat) :
    p.WritesAt pc register ↔ (Effect.ofInstruction pc i).writes register = true := by
  rw [WritesAt, h, Option.any_some]

theorem jumpAt?_of_getElem? {p : Proto} {pc : Nat} {i : Instruction} (h : p.code[pc]? = some i) :
    p.jumpAt? pc = (Effect.ofInstruction pc i).target? := by
  rw [jumpAt?, h, Option.bind_some]

theorem WritesAt.lt_size {p : Proto} {pc register : Nat} (h : p.WritesAt pc register) :
    pc < p.code.size := by
  rw [WritesAt] at h
  by_cases hpc : pc < p.code.size
  · exact hpc
  · rw [Array.getElem?_eq_none (Nat.le_of_not_lt hpc)] at h
    simp at h

/-- A jump writes nothing. -/
theorem not_writesAt_of_jumpAt? {p : Proto} {pc register : Nat} {target : Int}
    (h : p.jumpAt? pc = some target) : ¬ p.WritesAt pc register := by
  cases hi : p.code[pc]? with
  | none => rw [WritesAt, hi]; simp
  | some i =>
    rw [jumpAt?_of_getElem? hi] at h
    rw [writesAt_of_getElem? hi]
    cases he : Effect.ofInstruction pc i with
    | jump t => simp [Effect.writes]
    | range first last => simp [he, Effect.target?] at h
    | above first => simp [he, Effect.target?] at h
    | single register => simp [he, Effect.target?] at h
    | nothing => simp [he, Effect.target?] at h

/-- One more instruction that does not write leaves the last write alone. -/
theorem lastWrite_succ_of_not {p : Proto} {register n : Nat} (h : ¬ p.WritesAt n register)
    (pc : Nat) : p.LastWrite register (n + 1) pc ↔ p.LastWrite register n pc := by
  constructor
  · rintro ⟨hlt, hw, hno⟩
    rcases Nat.lt_or_eq_of_le (Nat.le_of_lt_succ hlt) with hlt | rfl
    · exact ⟨hlt, hw, fun k h1 h2 => hno k h1 (Nat.lt_succ_of_lt h2)⟩
    · exact absurd hw h
  · rintro ⟨hlt, hw, hno⟩
    refine ⟨Nat.lt_succ_of_lt hlt, hw, fun k h1 h2 => ?_⟩
    rcases Nat.lt_or_eq_of_le (Nat.le_of_lt_succ h2) with h2 | rfl
    · exact hno k h1 h2
    · exact h

/-- One more instruction that writes is the last one to do so. -/
theorem lastWrite_succ_of_writesAt {p : Proto} {register n : Nat} (h : p.WritesAt n register)
    (pc : Nat) : p.LastWrite register (n + 1) pc ↔ pc = n := by
  constructor
  · rintro ⟨hlt, -, hno⟩
    rcases Nat.lt_or_eq_of_le (Nat.le_of_lt_succ hlt) with hlt | heq
    · exact absurd h (hno n hlt (Nat.lt_succ_self n))
    · exact heq
  · rintro rfl
    exact ⟨Nat.lt_succ_self _, h, fun k h1 h2 => by omega⟩

end Proto

namespace SetterScan

/-- What a scan of the first `n` instructions knows about a register. -/
structure Reads (s : SetterScan) (p : Proto) (last register n : Nat) : Prop where
  /-- jumps land at the mark or in front of it -/
  below : ∀ pc < n, ∀ target, p.jumpAt? pc = some target → target ≤ Place.signed last →
    target ≤ s.conditionalBelow
  /-- and one of them lands at the mark, if there is a mark -/
  attained : s.conditionalBelow = 0 ∨ ∃ pc < n, p.jumpAt? pc = some (s.conditionalBelow : Int) ∧
    (s.conditionalBelow : Int) ≤ Place.signed last
  setter : ∀ pc, s.setter = some pc ↔ p.LastWrite register n pc ∧ p.NotJumpedOver last pc

namespace Reads

variable {s : SetterScan} {p : Proto} {last register n : Nat}

/-- The mark tells whether the next instruction is jumped over. -/
theorem notJumpedOver_iff (h : s.Reads p last register n) :
    p.NotJumpedOver last n ↔ s.conditionalBelow ≤ n := by
  constructor
  · intro hno
    rcases h.attained with h0 | ⟨pc, hpc, hjump, hle⟩
    · omega
    · exact Int.ofNat_le.1 (hno pc hpc _ hjump hle)
  · intro hle pc hpc target hjump htarget
    have := h.below pc hpc target hjump htarget
    omega

/-- A scan that reads something other than a jump keeps its mark. -/
theorem mark_succ (h : s.Reads p last register n) (hj : p.jumpAt? n = none) :
    (∀ pc < n + 1, ∀ target, p.jumpAt? pc = some target → target ≤ Place.signed last →
      target ≤ s.conditionalBelow) ∧
    (s.conditionalBelow = 0 ∨ ∃ pc < n + 1, p.jumpAt? pc = some (s.conditionalBelow : Int) ∧
      (s.conditionalBelow : Int) ≤ Place.signed last) := by
  constructor
  · intro pc hpc target hjump htarget
    rcases Nat.lt_or_eq_of_le (Nat.le_of_lt_succ hpc) with hlt | rfl
    · exact h.below pc hlt target hjump htarget
    · rw [hj] at hjump
      cases hjump
  · rcases h.attained with h0 | ⟨pc, hpc, hrest⟩
    · exact Or.inl h0
    · exact Or.inr ⟨pc, Nat.lt_succ_of_lt hpc, hrest⟩

/-- Reading past the end, or an instruction that neither jumps nor writes. -/
theorem skip (h : s.Reads p last register n) (hj : p.jumpAt? n = none)
    (hw : ¬ p.WritesAt n register) : s.Reads p last register (n + 1) where
  below := (h.mark_succ hj).1
  attained := (h.mark_succ hj).2
  setter pc := by rw [h.setter pc, Proto.lastWrite_succ_of_not hw]

/-- Reading a jump. -/
theorem readJump (h : s.Reads p last register n) {target : Int}
    (hj : p.jumpAt? n = some target) : (s.readJump last target).Reads p last register (n + 1) := by
  have hsetter : (s.readJump last target).setter = s.setter := by
    rw [SetterScan.readJump]
    split <;> rfl
  refine ⟨?_, ?_, fun pc => ?_⟩
  · intro pc hpc t hjump ht
    rcases Nat.lt_or_eq_of_le (Nat.le_of_lt_succ hpc) with hlt | rfl
    · have := h.below pc hlt t hjump ht
      rw [SetterScan.readJump]
      split
      · simp only
        omega
      · exact this
    · obtain rfl : target = t := Option.some.inj (hj.symm.trans hjump)
      rw [SetterScan.readJump]
      split
      · simp only
        omega
      · omega
  · rw [SetterScan.readJump]
    split
    · rename_i hmark
      have htarget : ((target.toNat : Nat) : Int) = target := Int.toNat_of_nonneg (by omega)
      refine Or.inr ⟨n, Nat.lt_succ_self n, ?_, ?_⟩
      · simp only [htarget]
        exact hj
      · simp only [htarget]
        exact hmark.2
    · rcases h.attained with h0 | ⟨pc, hpc, hrest⟩
      · exact Or.inl h0
      · exact Or.inr ⟨pc, Nat.lt_succ_of_lt hpc, hrest⟩
  · rw [hsetter, h.setter pc, Proto.lastWrite_succ_of_not (Proto.not_writesAt_of_jumpAt? hj)]

/-- Reading a write. -/
theorem readWrite (h : s.Reads p last register n) (hj : p.jumpAt? n = none)
    (hw : p.WritesAt n register) : (s.readWrite n).Reads p last register (n + 1) where
  below := (h.mark_succ hj).1
  attained := (h.mark_succ hj).2
  setter pc := by
    rw [Proto.lastWrite_succ_of_writesAt hw, SetterScan.readWrite]
    simp only
    split
    · rename_i hmark
      refine ⟨fun hnone => (by cases hnone), ?_⟩
      rintro ⟨rfl, hno⟩
      have := h.notJumpedOver_iff.1 hno
      omega
    · rename_i hmark
      constructor
      · intro hsome
        obtain rfl : n = pc := Option.some.inj hsome
        exact ⟨rfl, h.notJumpedOver_iff.2 (Nat.le_of_not_lt hmark)⟩
      · rintro ⟨rfl, -⟩
        rfl

/-- The step lemma: reading one more instruction. -/
theorem read (h : s.Reads p last register n) {i : Instruction} (hi : p.code[n]? = some i) :
    (s.read last register n i).Reads p last register (n + 1) := by
  have hj := Proto.jumpAt?_of_getElem? hi
  have hw := Proto.writesAt_of_getElem? hi register
  cases htarget : (Effect.ofInstruction n i).target? with
  | some target =>
    rw [htarget] at hj
    have hno : ¬ p.WritesAt n register := Proto.not_writesAt_of_jumpAt? hj
    rw [hw, Bool.not_eq_true] at hno
    simp only [SetterScan.read, htarget, hno, Bool.false_eq_true, if_false]
    exact h.readJump hj
  | none =>
    rw [htarget] at hj
    simp only [SetterScan.read, htarget]
    split
    · rename_i hwrites
      exact h.readWrite hj (hw.2 hwrites)
    · rename_i hwrites
      exact h.skip hj (mt hw.1 hwrites)

end Reads

/-- The run lemma: the scan of the front of the code knows what it has read. -/
theorem reads_ofCode (p : Proto) (last register n : Nat) :
    (ofCode p.code last register n).Reads p last register n := by
  induction n with
  | zero =>
    refine ⟨fun pc hpc => absurd hpc (Nat.not_lt_zero pc), Or.inl rfl, fun pc => ?_⟩
    refine ⟨fun h => (by cases h), fun h => absurd h.1.1 (Nat.not_lt_zero pc)⟩
  | succ n ih =>
    rw [ofCode]
    cases hi : p.code[n]? with
    | some i => exact ih.read hi
    | none =>
      refine ih.skip ?_ ?_
      · rw [Proto.jumpAt?, hi, Option.bind_none]
      · rw [Proto.WritesAt, hi]
        simp

end SetterScan

namespace Proto

/-- The setter of a register, as seen from a place, is the last instruction in front of it that
writes the register, provided that no jump in front of the instruction lands behind it. -/
theorem findSetter?_eq_some_iff (p : Proto) (q register pc : Nat) :
    p.findSetter? q register = some pc ↔
      p.LastWrite register (p.pendingPc q) pc ∧ p.NotJumpedOver (p.pendingPc q) pc := by
  have hscan := SetterScan.reads_ofCode p (p.pendingPc q) register
    (min (p.pendingPc q) p.code.size)
  rw [findSetter?, hscan.setter pc]
  refine and_congr_left fun _ => ?_
  constructor
  · rintro ⟨hlt, hw, hno⟩
    refine ⟨by omega, hw, fun k h1 h2 hk => hno k h1 ?_ hk⟩
    have := hk.lt_size
    omega
  · rintro ⟨hlt, hw, hno⟩
    have := hw.lt_size
    exact ⟨by omega, hw, fun k h1 h2 => hno k h1 (by omega)⟩

end Proto

end VmInspect
