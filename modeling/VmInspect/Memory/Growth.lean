import VmInspect.Memory.Manager

/-!
# Growing arrays

An array that is full doubles its capacity, but takes at least the configured minimum and at most its
limit.  The capacity is changed only after the block was resized.
-/

namespace VmInspect.Memory

/-- A block used as an array. -/
structure GrowingArray where
  block : Block := .null
  /-- the elements that the block has room for -/
  capacity : Nat := 0
  /-- the bytes of one element -/
  elementSize : Nat
deriving DecidableEq, Repr, Inhabited

namespace GrowingArray

/-- The greatest size of a block in bytes. -/
def maxBytes : Nat := 9223372036854775807

/-- The bytes of a number of elements. -/
def byteSize (a : GrowingArray) (count : Nat) : Except AllocationFailure Nat :=
  if count * a.elementSize ≤ maxBytes then .ok (count * a.elementSize) else .error .blockTooBig

/-- The limit on the number of elements, which their bytes may lower. -/
def elementLimit (a : GrowingArray) (limit : Nat) : Nat :=
  if a.elementSize = 0 then limit else min limit (maxBytes / a.elementSize)

/-- The capacity of an array that has to grow: the limit when doubling would come near it, and
otherwise the double. -/
def grownCapacity (a : GrowingArray) (limit minimum : Nat) : Nat :=
  if limit / 2 ≤ a.capacity then limit else min (max (a.capacity * 2) (max minimum 1)) limit

end GrowingArray

namespace Manager

/-- Resize the block of an array to a capacity. -/
def resizeArray (m : Manager) (a : GrowingArray) (capacity : Nat) :
    Except Misuse (Except AllocationFailure GrowingArray × Manager) :=
  match a.byteSize a.capacity, a.byteSize capacity with
  | .error e, _ => return (.error e, m)
  | _, .error e => return (.error e, m)
  | .ok oldBytes, .ok newBytes => do
    let (result, m) ← m.realloc a.block oldBytes newBytes
    return (result.map fun block => { a with block, capacity }, m)

/-- Make room for one more element behind a number of elements. -/
def ensureCapacity (m : Manager) (a : GrowingArray) (count limit : Nat) (what : String) :
    Except Misuse (Except AllocationFailure GrowingArray × Manager) :=
  if count < a.capacity then return (.ok a, m)
  else
    let limit := a.elementLimit limit
    if limit ≤ a.capacity then return (.error (.limitExceeded what limit), m)
    else m.resizeArray a (a.grownCapacity limit m.config.minArraySize)

/-- Shrink an array to a number of elements. -/
def shrinkTo (m : Manager) (a : GrowingArray) (count : Nat) :
    Except Misuse (Except AllocationFailure GrowingArray × Manager) :=
  m.resizeArray a count

end Manager

end VmInspect.Memory
