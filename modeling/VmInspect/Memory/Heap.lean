import VmInspect.Memory.Allocator

/-!
# The heap

The heap is a raw allocator beside the collector's debt: the bytes allocated since the collector's
baseline.  Blocks are freed here with their sizes, and a size of zero has to go with the null block.
-/

namespace VmInspect.Memory

/-- A misuse that ends the program: a block freed with a size of zero, or the null block with a
size. -/
inductive Misuse where
  | mismatchedFree
deriving DecidableEq, Repr, Inhabited

/-- A raw allocator and the debt. -/
structure Heap where
  raw : Allocator
  /-- the bytes allocated beyond the collector's baseline -/
  debt : Int := 0

namespace Heap

/-- Move the collector's baseline. -/
def shiftBaseline (h : Heap) (bytes : Int) : Heap := { h with debt := h.debt - bytes }

/-- Call the raw allocator and leave the debt alone. -/
def callRaw (h : Heap) (block : Block) (oldSize newSize : Nat) : Block × Heap :=
  let (result, raw) := h.raw.realloc block oldSize newSize
  (result, { h with raw })

/-- Count a resize in the debt. -/
def charge (h : Heap) (oldSize newSize : Nat) : Heap :=
  { h with debt := h.debt + newSize - oldSize }

/-- Free a block of a size. -/
def free (h : Heap) (block : Block) (size : Nat) : Except Misuse Heap :=
  if (size == 0) = !block.isLive then
    let (_, h) := h.callRaw block size 0
    .ok (h.charge size 0)
  else .error .mismatchedFree

end Heap

end VmInspect.Memory
