import VmInspect.Thread.Report

/-!
# Calls of a watched thread
-/

namespace VmInspect

namespace Thread

variable {H W : Type} (run : Callback H W)

/-- Enter the interpreted function in a slot, with the values above it as arguments. -/
def pushScriptFrame (t : Thread H W) (func : Nat) (flags : CallFlags) :
    Except Failure Nat × Thread H W :=
  match t.stack[func]?.bind t.function? with
  | some (.script proto _) =>
    let t := t.onMachine (·.enterScript proto func flags)
    (.ok t.currentId, t)
  | _ => (.error (t.handle (t.callFailure (.slot func))), t)

/-- Enter the native function in a slot, and report it. -/
def pushNativeFrame (t : Thread H W) (func : Nat) : Except Failure Nat × Thread H W :=
  match t.stack[func]?.bind t.function? with
  | some (.native _ _) =>
    let t := t.onMachine (·.enterNative func)
    let t := if t.mask.call then t.report run .call none 1 (t.above func) else t
    (.ok t.currentId, t)
  | _ => (.error (t.handle (t.callFailure (.slot func))), t)

/-- Return from the current frame with the values on top, and report it. The frame below all calls
is not left. -/
def popFrame (t : Thread H W) (results : Nat) : Option Nat × Thread H W :=
  let id := t.currentId
  if id = Machine.baseFrame then (none, t)
  else
    let t := if t.mask.isEmpty then t else t.hookReturn run results
    let t := t.onMachine (·.leave id results)
    (some t.currentId, t)

end Thread

end VmInspect
