import VmInspect.Memory.Block

/-!
# The system's memory

The system answers each request for memory with yes or no and nothing else is known about it, so its
answers are a parameter.  It keeps the list of the blocks it has given out.
-/

namespace VmInspect.Memory

/-- The source of all memory. -/
structure System where
  /-- the answer to a request, by its serial number, the bytes held by the block, and the bytes
  asked for -/
  grants : Nat → Nat → Nat → Bool
  /-- the requests so far -/
  requests : Nat := 0
  /-- the blocks given out and not taken back, with their sizes -/
  live : List (Nat × Nat) := []

namespace System

/-- Take a block back. -/
def release (s : System) (id : Nat) : System :=
  { s with live := s.live.filter fun entry => entry.1 ≠ id }

/-- Note that a block has a size. -/
def resize (s : System) (id size : Nat) : System :=
  { s with live := s.live.map fun entry => if entry.1 = id then (id, size) else entry }

/-- Give out a new block. -/
def give (s : System) (id size : Nat) : System := { s with live := s.live ++ [(id, size)] }

/-- Allocate, resize or free a block.  Freeing never fails, and a request that fails changes no
block. -/
def realloc (s : System) (b : Block) (oldSize newSize : Nat) : Block × System :=
  match b, newSize with
  | .null, 0 => (.null, s)
  | .live id, 0 => (.null, s.release id)
  | b, newSize =>
    let next := { s with requests := s.requests + 1 }
    if s.grants s.requests (b.held oldSize) newSize then
      match b with
      | .null => (.live s.requests, next.give s.requests newSize)
      | .live id => (.live id, next.resize id newSize)
    else (.null, next)

/-- The bytes of all blocks given out. -/
def liveBytes (s : System) : Nat := s.live.foldr (fun entry total => entry.2 + total) 0

end System

end VmInspect.Memory
