import VmInspect.Machine.Blame
import VmInspect.Thread.Hook

/-!
# Threads

A thread is a machine that is being watched.  The hook is a value of a type `H`, of which only the
callback knows the meaning, and `W` is what the callback keeps beside the thread, such as a log.
-/

namespace VmInspect

/-- A machine with the hook installed on it. -/
structure Thread (H W : Type) extends Machine where
  hook : Option H := none
  /-- the events that the hook is told about -/
  mask : HookMask := {}
  /-- the instructions from one count event to the next -/
  countBudget : Int := 0
  /-- the instructions left up to the next count event -/
  countLeft : Int := 0
  /-- the last instruction that was looked at for a line event -/
  oldPc : Nat := 0
  /-- whether a hook has suspended the thread -/
  suspended : Bool := false
  /-- whether events are reported; not while one is being reported -/
  allowHook : Bool := true
  /-- what is done to the message of a failure -/
  errorHandler : Option (Machine → String → Except String String) := none
  /-- what belongs to the callback -/
  host : W

/-- What a hook does when it is told about an event. -/
abbrev Callback (H W : Type) := H → HookRecord → Thread H W → HookAnswer × Thread H W

namespace Thread

variable {H W : Type}

/-- A thread without calls and without a hook. -/
def initial (host : W) : Thread H W where
  toMachine := Machine.initial
  host := host

/-- Change the machine. -/
def onMachine (t : Thread H W) (change : Machine → Machine) : Thread H W :=
  { t with toMachine := change t.toMachine }

/-- Change a frame, if it exists. -/
def onFrame (t : Thread H W) (id : Nat) (change : Frame → Frame) : Thread H W :=
  t.onMachine (·.modifyFrame id change)

/-! ## Failures -/

/-- Pass a failure through the error handler. When the handler fails, that is reported instead. -/
def handle (t : Thread H W) (f : Failure) : Failure :=
  match t.errorHandler with
  | none => f
  | some handler =>
    match handler t.toMachine f.message with
    | .ok message => { f with message }
    | .error _ => ⟨.errorHandler, FailureKind.errorHandler.text, f.traceback, none⟩

/-! ## Installing a hook -/

/-- Install a hook, or remove it by giving no hook or no events.  With a hook, events are looked for
in all calls in progress. -/
def setHook (t : Thread H W) (hook : Option H) (mask : HookMask) (count : Int) : Thread H W :=
  let installs := hook.isSome && !mask.isEmpty
  { t with
    toMachine := if installs then t.armTraps (t.callers t.currentId) else t.toMachine
    hook := if installs then hook else none
    mask := if installs then mask else .empty
    countBudget := count
    countLeft := count }

end Thread

end VmInspect
