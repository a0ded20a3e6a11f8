import VmInspect.Bytecode.Instruction

/-!
# What an instruction does to the registers

Each instruction writes one register, a run of registers, every register from one on, or none; a
jump writes none but may leave the instructions up to its target out.
-/

namespace VmInspect

/-- The registers that an instruction may write. -/
inductive Effect where
  /-- the registers from the first to the last -/
  | range (first last : Nat)
  /-- the register and all above it -/
  | above (first : Nat)
  /-- no register; the instruction at the target comes next -/
  | jump (target : Int)
  | single (register : Nat)
  | nothing
deriving DecidableEq, Repr, Inhabited

namespace Effect

/-- The effect of the instruction at a place.  Calls overwrite everything from the called function
on. -/
def ofInstruction (pc : Nat) (i : Instruction) : Effect :=
  match i.opcode with
  | .loadNil => range i.a (i.a + i.b)
  | .genericCall => above (i.a + 2)
  | .call | .tailCall => above i.a
  | .jump => jump ((pc : Int) + 1 + i.jumpDistance)
  | op => if op.writesA then single i.a else nothing

/-- Whether a register may be written. -/
def writes : Effect → Nat → Bool
  | range first last, r => decide (first ≤ r) && decide (r ≤ last)
  | above first, r => decide (first ≤ r)
  | single a, r => r == a
  | jump _, _ => false
  | nothing, _ => false

/-- The target of a jump. -/
def target? : Effect → Option Int
  | jump target => some target
  | _ => none

end Effect

end VmInspect
