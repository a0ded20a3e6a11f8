import VmInspect.Naming.Describe
import VmInspect.Proofs.Naming.Scan

/-!
# The setter is on every path

The scan for a setter never follows a path.  This file proves that it need not, as long as control
only branches forward:

* `BranchesForward.flowsTo_le_setter` — no branch goes over the setter.
* `Path.through_setter` — a path that starts at the setter or before it runs the setter, and
  nothing that writes the register after it.
* `findSetter?_on_every_path` — so every path to a place runs the setter found from there, and a
  register that some path leaves alone has no setter and gets no name.
-/

namespace VmInspect

namespace Proto

/-! ## Control flow -/

/-- Control may go from one instruction to another.  A jump goes to its target, a test to the next
instruction or over it, and every other instruction to the next one. -/
def FlowsTo (p : Proto) (pc next : Nat) : Prop :=
  ∃ i, p.code[pc]? = some i ∧
    if i.opcode = .jump then (next : Int) = pc + 1 + i.jumpDistance
    else next = pc + 1 ∨ (i.opcode.isTest = true ∧ next = pc + 2)

/-- A path of control from one place to another, with the instructions that it runs.  The
instruction at the end is not one of them. -/
inductive Path (p : Proto) : Nat → Nat → List Nat → Prop where
  | here (pc : Nat) : Path p pc pc []
  | step {pc next last : Nat} {visited : List Nat} (hflow : p.FlowsTo pc next)
      (hpath : Path p next last visited) : Path p pc last (pc :: visited)

/-- The opcodes that branch without being a jump or a test. -/
def otherBranches : List Opcode := [.loadFalseSkip, .forPrep, .forLoop, .genericPrep, .genericLoop]

/-- Control only branches forward, by jumps and by tests in front of a jump. -/
structure BranchesForward (p : Proto) : Prop where
  forward : ∀ pc (h : pc < p.code.size), p.code[pc].opcode = .jump → 0 ≤ p.code[pc].jumpDistance
  guarded : ∀ pc (h : pc < p.code.size), p.code[pc].opcode.isTest = true →
    p.code[pc + 1]?.map Instruction.opcode = some .jump
  loopless : ∀ pc (h : pc < p.code.size), p.code[pc].opcode ∉ otherBranches

/-- The code fits into memory: an instruction has four bytes, and an array has less than half of
all addresses. -/
def Addressable (p : Proto) : Prop := 4 * p.code.size < 9223372036854775808

instance (p : Proto) : Decidable p.Addressable := inferInstanceAs (Decidable (_ < _))

/-- The target of a jump is where control goes. -/
theorem jumpAt?_of_opcode {p : Proto} {pc : Nat} {i : Instruction} (hi : p.code[pc]? = some i)
    (hop : i.opcode = .jump) : p.jumpAt? pc = some ((pc : Int) + 1 + i.jumpDistance) := by
  rw [jumpAt?_of_getElem? hi, Effect.ofInstruction, hop, Effect.target?]

/-- A jump goes no further than its operand reaches. -/
theorem FlowsTo.le_add {p : Proto} {pc next : Nat} (h : p.FlowsTo pc next) :
    pc < p.code.size ∧ next ≤ pc + Instruction.axRange := by
  obtain ⟨i, hi, hnext⟩ := h
  refine ⟨(Array.getElem?_eq_some_iff.1 hi).1, ?_⟩
  split at hnext
  · have hk : i.k.toNat ≤ 1 := Bool.toNat_le i.k
    have ha : i.a < 256 := i.byteA.toNat_lt
    have hb : i.b < 256 := i.byteB.toNat_lt
    have hc : i.c < 256 := i.byteC.toNat_lt
    simp only [Instruction.jumpDistance, Instruction.ax, Instruction.bx, Instruction.jumpBias,
      Instruction.axRange] at *
    omega
  · rw [Instruction.axRange]
    omega

namespace BranchesForward

variable {p : Proto} {u v last s register : Nat}

theorem lt_of_flowsTo (hp : p.BranchesForward) (h : p.FlowsTo u v) : u < v := by
  obtain ⟨i, hi, hnext⟩ := h
  obtain ⟨hlt, rfl⟩ := Array.getElem?_eq_some_iff.1 hi
  split at hnext
  · rename_i hop
    have := hp.forward u hlt hop
    omega
  · omega

/-- What a test skips is a jump. -/
theorem jumpAt?_of_isTest (hp : p.BranchesForward) {i : Instruction} (hi : p.code[u]? = some i)
    (ht : i.opcode.isTest = true) : ∃ target, p.jumpAt? (u + 1) = some target := by
  obtain ⟨hlt, rfl⟩ := Array.getElem?_eq_some_iff.1 hi
  obtain ⟨j, hj, hop⟩ := Option.map_eq_some_iff.1 (hp.guarded u hlt ht)
  exact ⟨_, jumpAt?_of_opcode hj hop⟩

/-- No branch goes over an instruction that writes and that no jump goes over: a test only skips a
jump, which writes nothing. -/
theorem flowsTo_le_setter (hp : p.BranchesForward) (hlast : Place.signed last = last)
    (hw : p.WritesAt s register) (hno : p.NotJumpedOver last s) (h : p.FlowsTo u v)
    (hv : v ≤ last) (hu : u < s) : v ≤ s := by
  obtain ⟨i, hi, hnext⟩ := h
  split at hnext
  · rename_i hop
    have hjump := jumpAt?_of_opcode hi hop
    rw [← hnext] at hjump
    have := hno u hu v hjump (by omega)
    omega
  · rcases hnext with rfl | ⟨ht, rfl⟩
    · omega
    · refine Nat.le_of_not_lt fun hlt => ?_
      obtain rfl : s = u + 1 := by omega
      obtain ⟨target, hjump⟩ := hp.jumpAt?_of_isTest hi ht
      exact not_writesAt_of_jumpAt? hjump hw

end BranchesForward

/-! ## Paths -/

namespace Path

variable {p : Proto} {u last s register : Nat} {visited : List Nat}

theorem le (hp : p.BranchesForward) (h : p.Path u last visited) : u ≤ last := by
  induction h with
  | here pc => exact Nat.le_refl pc
  | step hflow _ ih => exact Nat.le_trans (Nat.le_of_lt (hp.lt_of_flowsTo hflow)) ih

/-- A path runs the instructions in front of its end. -/
theorem mem_bounds (hp : p.BranchesForward) (h : p.Path u last visited) :
    ∀ k ∈ visited, u ≤ k ∧ k < last := by
  induction h with
  | here pc =>
    intro k hk
    cases hk
  | step hflow hpath ih =>
    have hlt := hp.lt_of_flowsTo hflow
    have hle := hpath.le hp
    intro k hk
    rcases List.mem_cons.1 hk with rfl | hk
    · omega
    · have := ih k hk
      omega

/-- A path ends within reach of the code. -/
theorem last_le (h : p.Path u last visited) : last ≤ max u (p.code.size + Instruction.axRange) := by
  induction h with
  | here pc => exact Nat.le_max_left pc _
  | step hflow _ ih =>
    have := hflow.le_add
    omega

/-- So its end is a place in the lower half. -/
theorem signed_last (hsize : p.Addressable) (h : p.Path 0 last visited) :
    Place.signed last = last := by
  have := h.last_le
  rw [Instruction.axRange] at this
  rw [Addressable] at hsize
  exact Place.signed_of_lt (by omega)

/-- A path from the setter or from before it runs the setter, and then nothing that writes the
register. -/
theorem through_setter (hp : p.BranchesForward) (hlast : Place.signed last = last)
    (hwrite : p.LastWrite register last s) (hno : p.NotJumpedOver last s)
    (h : p.Path u last visited) (hu : u ≤ s) :
    ∃ before after, visited = before ++ s :: after ∧ ∀ k ∈ after, ¬ p.WritesAt k register := by
  obtain ⟨hlt, hw, hnone⟩ := hwrite
  induction h with
  | here pc => omega
  | @step pc next last visited hflow hpath ih =>
    rcases Nat.lt_or_eq_of_le hu with hu | rfl
    · have hnext := hp.flowsTo_le_setter hlast hw hno hflow (hpath.le hp) hu
      obtain ⟨before, after, rfl, hafter⟩ := ih hlast hno hnext hlt hnone
      exact ⟨pc :: before, after, rfl, hafter⟩
    · refine ⟨[], visited, rfl, fun k hk => ?_⟩
      have hflow := hp.lt_of_flowsTo hflow
      have hk := hpath.mem_bounds hp k hk
      exact hnone k (by omega) hk.2

end Path

/-! ## Names -/

/-- Without a variable and without a setter there is no name. -/
theorem describe?_eq_none {p : Proto} {q register : Nat} (hvar : p.localName? (register + 1) q = none)
    (hset : p.findSetter? q register = none) : p.describe? q register = none := by
  rw [describe?, findObject, hvar, hset]
  rfl

/-- **The setter is on every path.**  If control only branches forward, every path to the place that
is about to run runs the setter of a register found from there, and after it nothing that writes the
register.  A register that one of the paths leaves alone has no setter, and no name unless a
variable lives in it. -/
theorem findSetter?_on_every_path (p : Proto) (hp : p.BranchesForward) (hsize : p.Addressable)
    (q register : Nat) :
    (∀ s, p.findSetter? q register = some s →
      ∀ visited, p.Path 0 (p.pendingPc q) visited →
        ∃ before after, visited = before ++ s :: after ∧
          ∀ k ∈ after, ¬ p.WritesAt k register) ∧
    ∀ visited, p.Path 0 (p.pendingPc q) visited → (∀ k ∈ visited, ¬ p.WritesAt k register) →
      p.findSetter? q register = none ∧
        (p.localName? (register + 1) q = none → p.describe? q register = none) := by
  have hfound : ∀ s, p.findSetter? q register = some s →
      ∀ visited, p.Path 0 (p.pendingPc q) visited →
        ∃ before after, visited = before ++ s :: after ∧
          ∀ k ∈ after, ¬ p.WritesAt k register := by
    intro s hs visited hpath
    obtain ⟨hwrite, hno⟩ := (p.findSetter?_eq_some_iff q register s).1 hs
    exact hpath.through_setter hp (hpath.signed_last hsize) hwrite hno (Nat.zero_le s)
  refine ⟨hfound, fun visited hpath hnone => ?_⟩
  have hset : p.findSetter? q register = none := by
    cases hs : p.findSetter? q register with
    | none => rfl
    | some s =>
      obtain ⟨before, after, rfl, -⟩ := hfound s hs visited hpath
      have hwrite := ((p.findSetter?_eq_some_iff q register s).1 hs).1.2.1
      exact absurd hwrite (hnone s (by simp))
  exact ⟨hset, fun hvar => describe?_eq_none hvar hset⟩

/-- The register that both sides of a branch leave alone has its setter in front of them, and the
one that only one side sets has none. -/
theorem findSetter?_on_every_path_branch :
    let p : Proto := { code := #[
      .abc .loadI 0 0 0, .abc .test 0 0 0, .ofJumpDistance .jump 1, .abc .loadI 1 0 0,
      .abc .loadI 2 0 0] }
    p.BranchesForward ∧ p.Addressable ∧ p.Path 0 5 [0, 1, 2, 4] ∧
      p.findSetter? 5 0 = some 0 ∧ p.findSetter? 5 2 = some 4 ∧
      p.findSetter? 5 1 = none ∧ p.describe? 5 1 = none := by
  intro p
  have hp : p.BranchesForward := ⟨by decide, by decide, by decide⟩
  have hsize : p.Addressable := by decide
  have hpath : p.Path 0 5 [0, 1, 2, 4] :=
    .step ⟨_, rfl, by decide⟩ (.step ⟨_, rfl, by decide⟩ (.step ⟨_, rfl, by decide⟩
      (.step ⟨_, rfl, by decide⟩ (.here 5))))
  obtain ⟨-, hnone⟩ := findSetter?_on_every_path p hp hsize 5 1
  obtain ⟨hset, hname⟩ := hnone _ hpath (by decide)
  exact ⟨hp, hsize, hpath, by decide, by decide, hset, hname rfl⟩

end Proto

end VmInspect
