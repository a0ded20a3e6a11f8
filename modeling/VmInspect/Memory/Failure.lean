import VmInspect.Failure

/-!
# Allocation failures
-/

namespace VmInspect.Memory

/-- Why memory was not given. -/
inductive AllocationFailure where
  /-- the raw allocator failed, after an emergency collection too -/
  | outOfMemory
  /-- an array is at its greatest number of elements -/
  | limitExceeded (what : String) (limit : Nat)
  /-- the size is no size a block can have -/
  | blockTooBig
deriving DecidableEq, Repr, Inhabited

namespace AllocationFailure

def message : AllocationFailure → String
  | outOfMemory => "not enough memory"
  | limitExceeded what limit => "too many " ++ what ++ " (limit is " ++ toString limit ++ ")"
  | blockTooBig => "memory allocation error: block too big"

/-- The kind of failure that running code sees. -/
def kind : AllocationFailure → FailureKind
  | outOfMemory => .outOfMemory
  | limitExceeded _ _ => .limitExceeded
  | blockTooBig => .runtime

/-- The failure that running code sees. -/
def toFailure (f : AllocationFailure) : Failure := ⟨f.kind, f.message, [], none⟩

end AllocationFailure

end VmInspect.Memory
