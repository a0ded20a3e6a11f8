import VmInspect.Memory.System

/-!
# Raw allocators

A raw allocator has one operation that allocates, resizes and frees.  It is the system itself, or a
budget around another allocator that lets no more than a number of bytes be alive at a time.
-/

namespace VmInspect.Memory

/-- A limit on the bytes alive, and what has been counted. -/
structure Budget where
  limit : Nat
  /-- the bytes alive -/
  inUse : Nat := 0
  /-- the labels of the blocks allocated so far, the latest first -/
  labels : List Nat := []
deriving DecidableEq, Repr, Inhabited

namespace Budget

/-- How many blocks were allocated under a label. -/
def labelCount (b : Budget) (label : Nat) : Nat := b.labels.count label

/-- Whether a resize from bytes held to a size is refused. Freeing never is. -/
def refuses (b : Budget) (held newSize : Nat) : Bool :=
  decide (0 < newSize) && (decide (b.inUse < held) || decide (b.limit < b.inUse - held + newSize))

@[simp] theorem refuses_zero (b : Budget) (held : Nat) : b.refuses held 0 = false := rfl

/-- Count a resize that was carried out. -/
def count (b : Budget) (block : Block) (oldSize newSize : Nat) : Budget :=
  { b with
    inUse := b.inUse - block.held oldSize + newSize
    labels := if !block.isLive && decide (0 < newSize) then oldSize :: b.labels else b.labels }

end Budget

/-- The system, or a budget around another allocator. -/
inductive Allocator where
  | system (s : System)
  | budgeted (b : Budget) (inner : Allocator)

namespace Allocator

/-- Allocate, resize or free a block.  The result is the null block when the new size is zero and
when the request failed; a failed request changes nothing. -/
def realloc : Allocator → Block → Nat → Nat → Block × Allocator
  | system s, block, oldSize, newSize =>
    let (result, s) := s.realloc block oldSize newSize
    (result, system s)
  | budgeted b inner, block, oldSize, newSize =>
    if b.refuses (block.held oldSize) newSize then (.null, budgeted b inner)
    else
      let (result, inner) := inner.realloc block oldSize newSize
      if result.isLive || newSize == 0 then
        (result, budgeted (b.count block oldSize newSize) inner)
      else (result, budgeted b inner)

/-- The outermost budget. -/
def budget? : Allocator → Option Budget
  | system _ => none
  | budgeted b _ => some b

/-- Change the outermost limit. Blocks beyond the new limit stay alive. -/
def setLimit : Allocator → Nat → Allocator
  | system s, _ => system s
  | budgeted b inner, limit => budgeted { b with limit } inner

/-- The system at the bottom. -/
def bottom : Allocator → System
  | system s => s
  | budgeted _ inner => inner.bottom

end Allocator

end VmInspect.Memory
