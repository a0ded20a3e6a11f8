/-!
# Memory blocks

A block is known by a number that the system gave it; its bytes are not looked at here.  The null
block stands for no memory.
-/

namespace VmInspect.Memory

/-- A block of memory, or none. -/
inductive Block where
  | null
  | live (id : Nat)
deriving DecidableEq, Repr, Inhabited

namespace Block

def isLive : Block → Bool
  | null => false
  | live _ => true

/-- The bytes that a resize of the block gives up.  In front of the null block the old size is a
label and has no weight. -/
def held (b : Block) (oldSize : Nat) : Nat := if b.isLive then oldSize else 0

@[simp] theorem held_null (oldSize : Nat) : null.held oldSize = 0 := rfl

@[simp] theorem held_live (id oldSize : Nat) : (live id).held oldSize = oldSize := rfl

end Block

end VmInspect.Memory
