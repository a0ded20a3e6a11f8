import VmInspect.Bytecode.Place
import VmInspect.Bytecode.Proto
import VmInspect.Naming.Effect

/-!
# The instruction that set a register

The code before a place is read once from the front.  The last instruction that writes the register
is its setter, unless a jump that ends at the place or before it may have passed the instruction by:
then nothing is known.  A place in the upper half of all places counts as one before the code, so
that no jump ends there or before it.
-/

namespace VmInspect

/-- What is known after reading the front of the code. -/
structure SetterScan where
  /-- the setter of the register so far -/
  setter : Option Nat := none
  /-- the instructions below this one may have been jumped over -/
  conditionalBelow : Nat := 0
deriving DecidableEq, Repr, Inhabited

namespace SetterScan

/-- Read a jump. Only a jump further than all before, and not past the end, matters. -/
def readJump (s : SetterScan) (last : Nat) (target : Int) : SetterScan :=
  if (s.conditionalBelow : Int) < target ∧ target ≤ Place.signed last then
    { s with conditionalBelow := target.toNat }
  else s

/-- Read a write to the register. -/
def readWrite (s : SetterScan) (pc : Nat) : SetterScan :=
  { s with setter := if pc < s.conditionalBelow then none else some pc }

/-- Read the instruction at a place. -/
def read (s : SetterScan) (last register pc : Nat) (i : Instruction) : SetterScan :=
  let effect := Effect.ofInstruction pc i
  let s := match effect.target? with
    | some target => s.readJump last target
    | none => s
  if effect.writes register then s.readWrite pc else s

/-- Read the first `n` instructions. -/
def ofCode (code : Array Instruction) (last register : Nat) : Nat → SetterScan
  | 0 => {}
  | n + 1 =>
    let s := ofCode code last register n
    match code[n]? with
    | some i => s.read last register n i
    | none => s

end SetterScan

namespace Proto

/-- The place whose instruction is about to run, seen from a place.  A metamethod runs on behalf of
the instruction before it, which is not finished yet. -/
def pendingPc (p : Proto) (pc : Nat) : Nat :=
  if p.code[pc]?.any (·.opcode.isFollowUp) then pc - 1 else pc

/-- The instruction that set a register last, as seen from a place. -/
def findSetter? (p : Proto) (pc register : Nat) : Option Nat :=
  let last := p.pendingPc pc
  (SetterScan.ofCode p.code last register (min last p.code.size)).setter

end Proto

end VmInspect
