import VmInspect.Proofs.Naming.Forward

/-!
# What the setter of a register misses

An instruction overwrites the registers that the description of its operation assigns.  The search for
a setter does not read descriptions: it goes by a summary of them, the effect of the instruction.  This
file compares the two:

* `Effect.writes_or_spillsInto` — the effect covers what an instruction overwrites, apart from the
  registers that it spills into: the second one of a method look-up, and those of all extra arguments
  but the first.
* `findSetter?_overwritten_iff` — so a register was overwritten after its setter exactly when
  something was spilled into it.
* `describe?_of_unspilled` — and where nothing is spilled, a name belongs to the last instruction that
  overwrote the register.
-/

namespace VmInspect

/-! ## Described writes -/

/-- Whether the operation is described as one that assigns register A, and no other. -/
def Opcode.assignsA : Opcode → Bool
  | move | loadI | loadF | loadK | loadKX | loadFalse | loadFalseSkip | loadTrue | getUpvalue
  | getTabUp | getTable | getI | getField | newTable | addI | addK | subK | mulK | modK | powK
  | divK | floorDivK | bitAndK | bitOrK | bitXorK | shiftRightI | shiftLeftI | add | sub | mul
  | mod | pow | div | floorDiv | bitAnd | bitOr | bitXor | shiftLeft | shiftRight | negate | bitNot
  | logicNot | length | concat | testSet | genericLoop | closure => true
  | _ => false

namespace Instruction

/-- Whether a register takes one of the results that start in register A.  There is one result less
than operand C says, and when that is zero they go as far as they reach. -/
def takesResult (i : Instruction) (register : Nat) : Bool :=
  decide (i.a ≤ register) && (i.c == 0 || decide (register + 2 ≤ i.a + i.c))

/-- Whether an instruction overwrites a register, by the description of its operation. -/
def overwrites (i : Instruction) (register : Nat) : Bool :=
  match i.opcode with
  | .loadNil => decide (i.a ≤ register) && decide (register ≤ i.a + i.b)
  | .selfIndex => register == i.a || register == i.a + 1
  | .call | .vararg => i.takesResult register
  | .genericCall => decide (i.a + 4 ≤ register) && decide (register ≤ i.a + 3 + i.c)
  | op => op.assignsA && register == i.a

/-- Whether an instruction overwrites a register beside the one register that its effect names. -/
def spillsInto (i : Instruction) (register : Nat) : Bool :=
  match i.opcode with
  | .selfIndex => register == i.a + 1
  | .vararg => register != i.a && i.takesResult register
  | _ => false

theorem overwrites_of_spillsInto {i : Instruction} {register : Nat}
    (h : i.spillsInto register = true) : i.overwrites register = true := by
  unfold spillsInto at h
  split at h
  · rename_i hop
    simp only [overwrites, hop, h, Bool.or_true]
  · rename_i hop
    simp only [overwrites, hop]
    exact (Bool.and_eq_true_iff.1 h).2
  · cases h

end Instruction

/-- An operation that is described to assign register A is known to write it. -/
theorem Opcode.writesA_of_assignsA {op : Opcode} (h : op.assignsA = true) : op.writesA = true := by
  cases op <;> first
    | rfl
    | cases h

/-- That is its effect. -/
theorem Effect.ofInstruction_of_assignsA {i : Instruction} (h : i.opcode.assignsA = true) (pc : Nat) :
    Effect.ofInstruction pc i = .single i.a := by
  unfold Effect.ofInstruction
  split
  case h_6 => rw [if_pos (Opcode.writesA_of_assignsA h)]
  all_goals
    rename_i hop
    rw [hop] at h
    cases h

/-- And that is what it overwrites. -/
theorem Instruction.overwrites_of_assignsA {i : Instruction} (h : i.opcode.assignsA = true)
    (register : Nat) : i.overwrites register = (register == i.a) := by
  unfold Instruction.overwrites
  split
  case h_6 => rw [h, Bool.true_and]
  all_goals
    rename_i hop
    rw [hop] at h
    cases h

/-- The effect of an instruction covers what it overwrites, unless it spills. -/
theorem Effect.writes_or_spillsInto {i : Instruction} {register : Nat}
    (h : i.overwrites register = true) (pc : Nat) :
    (Effect.ofInstruction pc i).writes register = true ∨ i.spillsInto register = true := by
  unfold Instruction.overwrites at h
  split at h
  case h_1 hop => exact Or.inl (by simpa only [ofInstruction, hop, writes] using h)
  case h_2 hop =>
    rw [Bool.or_eq_true] at h
    simpa only [ofInstruction, hop, Opcode.writesA, if_true, writes, Instruction.spillsInto] using h
  case h_3 hop =>
    rw [Instruction.takesResult, Bool.and_eq_true] at h
    exact Or.inl (by simpa only [ofInstruction, hop, writes] using h.1)
  case h_4 hop =>
    by_cases ha : register = i.a
    · exact Or.inl (by simp [ofInstruction, hop, Opcode.writesA, writes, ha])
    · exact Or.inr (by simp [Instruction.spillsInto, hop, h, ha])
  case h_5 hop =>
    rw [Bool.and_eq_true, decide_eq_true_eq] at h
    have habove : i.a + 2 ≤ register := by omega
    exact Or.inl (by simpa only [ofInstruction, hop, writes, decide_eq_true_eq] using habove)
  case h_6 =>
    obtain ⟨hassigns, ha⟩ := Bool.and_eq_true_iff.1 h
    rw [Effect.ofInstruction_of_assignsA hassigns]
    exact Or.inl ha

/-! ## Overwritten values -/

namespace Proto

/-- Whether the instruction at a place overwrites a register. -/
def OverwritesAt (p : Proto) (pc register : Nat) : Prop :=
  p.code[pc]?.any (·.overwrites register) = true

instance (p : Proto) (pc register : Nat) : Decidable (p.OverwritesAt pc register) :=
  inferInstanceAs (Decidable (_ = true))

/-- Whether the instruction at a place spills into a register. -/
def SpillsAt (p : Proto) (pc register : Nat) : Prop :=
  p.code[pc]?.any (·.spillsInto register) = true

instance (p : Proto) (pc register : Nat) : Decidable (p.SpillsAt pc register) :=
  inferInstanceAs (Decidable (_ = true))

/-- An instruction is the last one to overwrite a register among the first `n`. -/
def LastOverwrite (p : Proto) (register n pc : Nat) : Prop :=
  pc < n ∧ p.OverwritesAt pc register ∧ ∀ k, pc < k → k < n → ¬ p.OverwritesAt k register

variable {p : Proto} {q s register : Nat} {i : Instruction}

theorem overwritesAt_of_getElem? (hi : p.code[s]? = some i) (register : Nat) :
    p.OverwritesAt s register ↔ i.overwrites register = true := by
  rw [OverwritesAt, hi, Option.any_some]

theorem OverwritesAt.of_spillsAt (h : p.SpillsAt s register) : p.OverwritesAt s register := by
  cases hi : p.code[s]? with
  | none => rw [SpillsAt, hi] at h; simp at h
  | some i =>
    rw [SpillsAt, hi, Option.any_some] at h
    exact (overwritesAt_of_getElem? hi register).2 (Instruction.overwrites_of_spillsInto h)

theorem OverwritesAt.writesAt_or_spillsAt (h : p.OverwritesAt s register) :
    p.WritesAt s register ∨ p.SpillsAt s register := by
  cases hi : p.code[s]? with
  | none => rw [OverwritesAt, hi] at h; simp at h
  | some i =>
    rw [overwritesAt_of_getElem? hi] at h
    rw [writesAt_of_getElem? hi, SpillsAt, hi, Option.any_some]
    exact Effect.writes_or_spillsInto h s

/-- After its last write a register is overwritten only by what is spilled into it. -/
theorem LastWrite.overwritten_iff (h : p.LastWrite register q s) :
    (∀ k, s < k → k < q → ¬ p.OverwritesAt k register) ↔
      ∀ k, s < k → k < q → ¬ p.SpillsAt k register := by
  refine forall_congr' fun k => forall₂_congr fun hs hq => not_congr ?_
  refine ⟨fun hover => ?_, .of_spillsAt⟩
  exact hover.writesAt_or_spillsAt.resolve_left (h.2.2 k hs hq)

theorem assignsA_of_loadedName? {name : Name} (h : p.loadedName? s i = some name) :
    i.opcode.assignsA = true := by
  unfold loadedName? at h
  split at h
  case h_4 => cases h
  all_goals
    rename_i hop
    rw [hop]
    rfl

theorem assignsA_of_fieldName? {name : Name} (h : p.fieldName? s i = some name) :
    i.opcode.assignsA = true ∨ i.opcode = .selfIndex := by
  unfold fieldName? at h
  split at h
  case h_5 hop => exact Or.inr hop
  case h_6 => cases h
  all_goals
    rename_i hop
    rw [hop]
    exact Or.inl rfl

/-- An instruction that gives its register a name overwrites it. -/
theorem WritesAt.overwritesAt_of_name (h : p.WritesAt s register) (hi : p.code[s]? = some i)
    {name : Name}
    (hname : (if i.opcode = .move ∧ i.b < register then p.describe? s i.b
      else p.loadedName? s i <|> p.fieldName? s i) = some name) : p.OverwritesAt s register := by
  rw [writesAt_of_getElem? hi] at h
  rw [overwritesAt_of_getElem? hi]
  have hnames : i.opcode.assignsA = true ∨ i.opcode = .selfIndex := by
    split at hname
    · rename_i hmove
      rw [hmove.1]
      exact Or.inl rfl
    · cases hloaded : p.loadedName? s i with
      | some loaded => exact Or.inl (assignsA_of_loadedName? hloaded)
      | none =>
        rw [hloaded] at hname
        exact assignsA_of_fieldName? hname
  rcases hnames with hassigns | hop
  · rw [Effect.ofInstruction_of_assignsA hassigns] at h
    rw [Instruction.overwrites_of_assignsA hassigns]
    exact h
  · simp only [Effect.ofInstruction, hop, Opcode.writesA, if_true, Effect.writes] at h
    simp only [Instruction.overwrites, hop, h, Bool.true_or]

/-- Where nothing is spilled into a register, a name of its value comes from the last instruction
that overwrote it: a move from a lower register, whose value is named in turn, or one that is itself
the source of the name. -/
theorem describe?_of_unspilled (hq : ∀ i, p.code[q]? = some i → i.opcode.isFollowUp = false)
    (hspill : ∀ k < q, ¬ p.SpillsAt k register) (hvar : p.localName? (register + 1) q = none)
    {name : Name} (hname : p.describe? q register = some name) :
    ∃ s i, p.code[s]? = some i ∧ p.LastOverwrite register q s ∧
      (if i.opcode = .move ∧ i.b < register then p.describe? s i.b
        else p.loadedName? s i <|> p.fieldName? s i) = some name := by
  cases hset : p.findSetter? q register with
  | none =>
    rw [describe?_eq_none hvar hset] at hname
    cases hname
  | some s =>
    obtain ⟨hlast, -⟩ := (p.findSetter?_eq_some_iff q register s).1 hset
    rw [pendingPc_eq_self hq] at hlast
    obtain ⟨i, hi⟩ : ∃ i, p.code[s]? = some i := ⟨_, Array.getElem?_eq_getElem hlast.2.1.lt_size⟩
    rw [describe?_of_setter hvar hset hi] at hname
    refine ⟨s, i, hi, ⟨hlast.1, hlast.2.1.overwritesAt_of_name hi hname, ?_⟩, hname⟩
    exact hlast.overwritten_iff.2 fun k _ hk => hspill k hk

/-- **What was spilled is missed.**  As seen from a place whose instruction does not finish another
one, a register was overwritten after its setter exactly when an instruction in between spilled into
it: a method look-up into its second register, or extra arguments into a register other than their
first.  Where nothing was spilled into it at all, its value has the name that the last instruction
that overwrote it gives. -/
theorem findSetter?_overwritten_iff (p : Proto) {q : Nat}
    (hq : ∀ i, p.code[q]? = some i → i.opcode.isFollowUp = false) (register : Nat) :
    (∀ s, p.findSetter? q register = some s →
      ((∀ k, s < k → k < q → ¬ p.OverwritesAt k register) ↔
        ∀ k, s < k → k < q → ¬ p.SpillsAt k register)) ∧
    ((∀ k < q, ¬ p.SpillsAt k register) → p.localName? (register + 1) q = none →
      ∀ name, p.describe? q register = some name →
        ∃ s i, p.code[s]? = some i ∧ p.LastOverwrite register q s ∧
          (if i.opcode = .move ∧ i.b < register then p.describe? s i.b
            else p.loadedName? s i <|> p.fieldName? s i) = some name) := by
  refine ⟨fun s hset => ?_, fun hspill hvar name => describe?_of_unspilled hq hspill hvar⟩
  obtain ⟨hlast, -⟩ := (p.findSetter?_eq_some_iff q register s).1 hset
  rw [pendingPc_eq_self hq] at hlast
  exact hlast.overwritten_iff

/-- Two constants are loaded; extra arguments are spilled over the first one, and the object of a
method look-up over the second one. -/
def spillingProto : Proto where
  constants := #[.string "x"]
  isVararg := true
  maxStack := 6
  code := #[
    .abx .loadK 1 0, .abc .vararg 0 0 3, .abx .loadK 3 0, .abck .selfIndex 2 5 0 true,
    .abc .return0 0 0 0]

/-- Nothing is spilled into the register of the look-up, and so its name is that of the method. -/
theorem findSetter?_overwritten_iff_method :
    spillingProto.findSetter? 4 2 = some 3 ∧
      (∀ k, 3 < k → k < 4 → ¬ spillingProto.OverwritesAt k 2) ∧
      spillingProto.describe? 4 2 = some ⟨.method, "x"⟩ ∧
      ∃ s i, spillingProto.code[s]? = some i ∧ spillingProto.LastOverwrite 2 4 s ∧
        (if i.opcode = .move ∧ i.b < 2 then spillingProto.describe? s i.b
          else spillingProto.loadedName? s i <|> spillingProto.fieldName? s i) =
            some ⟨.method, "x"⟩ := by
  have hq : ∀ i, spillingProto.code[4]? = some i → i.opcode.isFollowUp = false := by decide
  have hset : spillingProto.findSetter? 4 2 = some 3 := by decide
  have hname : spillingProto.describe? 4 2 = some ⟨.method, "x"⟩ := by
    rw [describe?_of_setter rfl hset rfl]
    rfl
  obtain ⟨hover, hlast⟩ := findSetter?_overwritten_iff spillingProto hq 2
  refine ⟨hset, (hover 3 hset).2 fun k h3 h4 => absurd h4 (by omega), hname, ?_⟩
  exact hlast (by decide) rfl _ hname

/-- Both constants lend their name to what was spilled over them, though control goes straight
through the code. -/
theorem spilled_value_misnamed :
    (∀ i ∈ spillingProto.code, i.opcode ∈ [.loadK, .vararg, .selfIndex, .return0]) ∧
      spillingProto.findSetter? 4 1 = some 0 ∧ spillingProto.OverwritesAt 1 1 ∧
      spillingProto.describe? 4 1 = some ⟨.constant, "x"⟩ ∧
      spillingProto.findSetter? 4 3 = some 2 ∧ spillingProto.OverwritesAt 3 3 ∧
      spillingProto.describe? 4 3 = some ⟨.constant, "x"⟩ := by
  have hfirst : spillingProto.findSetter? 4 1 = some 0 := by decide
  have hsecond : spillingProto.findSetter? 4 3 = some 2 := by decide
  refine ⟨by decide, hfirst, by decide, ?_, hsecond, by decide, ?_⟩
  · rw [describe?_of_setter rfl hfirst rfl]
    rfl
  · rw [describe?_of_setter rfl hsecond rfl]
    rfl

end Proto

end VmInspect
