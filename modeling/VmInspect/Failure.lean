import VmInspect.Source.Position

/-!
# Failures

Everything that ends a computation early travels as a failure: a kind, a message, the traceback at
the time, and a position where one is known.  The suspension that a hook asks for travels the same
way.
-/

namespace VmInspect

/-- What went wrong. -/
inductive FailureKind where
  /-- running code did something wrong -/
  | runtime
  /-- no memory, not even after an emergency collection -/
  | outOfMemory
  /-- a growing array is at its limit -/
  | limitExceeded
  /-- a hook asked to suspend the thread -/
  | yield
  /-- the error handler failed itself -/
  | errorHandler
deriving DecidableEq, Repr, Inhabited

/-- The words for a kind. -/
def FailureKind.text : FailureKind → String
  | .runtime => "runtime error"
  | .outOfMemory => "memory error"
  | .limitExceeded => "limit exceeded"
  | .yield => "yield"
  | .errorHandler => "error in error handling"

/-- A failure, or the request to suspend. -/
structure Failure where
  kind : FailureKind
  message : String
  /-- the live calls, the innermost first -/
  traceback : List TraceEntry := []
  position : Option Position := none
deriving DecidableEq, Repr, Inhabited

namespace Failure

/-- A failure of running code without a place. -/
def runtime (message : String) : Failure := ⟨.runtime, message, [], none⟩

/-- The request to suspend. -/
def yielded : Failure := ⟨.yield, "attempt to yield from a hook", [], none⟩

def isYield (f : Failure) : Bool := f.kind == .yield

end Failure

end VmInspect
