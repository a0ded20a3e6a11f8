import VmInspect.Thread.Basic

/-!
# Reporting events

While an event is reported the whole register window of the frame is protected, the frame has room
for the callback above its top, and no other event is reported.  Afterwards the tops and the flags
are what they were.
-/

namespace VmInspect

namespace Thread

variable {H W : Type} (run : Callback H W)

/-- The flags of a frame while an event is reported. -/
def reportFlags (count : Nat) : CallFlags where
  hooked := true
  transfer := count != 0

/-- The top while an event is reported. -/
def reportTop (t : Thread H W) : Nat :=
  if t.current.isScript then max t.top t.current.top else t.top

/-- Make the thread ready for a callback. -/
def beginReport (t : Thread H W) (first count : Nat) : Thread H W :=
  let top := t.reportTop
  let id := t.currentId
  let t := t.onMachine fun m => { m with top }.ensureStack Machine.minStack
  let t := t.onFrame id fun f =>
    { f with
      top := max f.top (top + Machine.minStack)
      transfer := if count = 0 then f.transfer else ⟨first, count⟩ }.insertFlags
        (reportFlags count)
  { t with allowHook := false }

/-- Put back what was changed for a callback. -/
def endReport (t : Thread H W) (id top frameTop count : Nat) : Thread H W :=
  let t := t.onFrame id fun f => { f with top := frameTop }.removeFlags (reportFlags count)
  { t with top, allowHook := true }

/-- Whether a hook may suspend the thread at an event. -/
def mayYield : HookEvent → Bool
  | .line => true
  | .count => true
  | _ => false

/-- Report an event in the current frame, with the values moved across a call.  The result says
whether the thread is to be suspended. -/
def fireHook (t : Thread H W) (event : HookEvent) (line : Option Int) (first count : Nat) :
    HookAnswer × Thread H W :=
  match t.hook with
  | none => (.proceed, t)
  | some hook =>
    if t.allowHook then
      let (answer, after) := run hook ⟨event, line, t.currentId⟩ (t.beginReport first count)
      let after := after.endReport t.currentId t.top t.current.top count
      if answer = .yield ∧ mayYield event then (.yield, { after with suspended := true })
      else (.proceed, after)
    else (.proceed, t)

/-- Report an event whose answer does not matter here. -/
def report (t : Thread H W) (event : HookEvent) (line : Option Int) (first count : Nat) :
    Thread H W :=
  (t.fireHook run event line first count).2

/-! ## Calls and returns -/

/-- Report that a frame was entered.  The saved place is one further meanwhile. -/
def hookCall (t : Thread H W) (id : Nat) : Thread H W :=
  let t := { t with oldPc := 0 }
  match t.frame? id with
  | none => t
  | some frame =>
    if t.mask.call then
      let event : HookEvent := if frame.flags.tailCall then .tailCall else .call
      let params := ((t.frameProto? id).map Proto.paramCount).getD 0
      let pc := frame.savedPc?.getD 0
      let t := t.onFrame id (·.setSavedPc (pc + 1))
      (t.report run event none 1 params).onFrame id (·.setSavedPc pc)
    else t

/-- Report that the current frame returns the values on top. The line that was reached is again
that of the caller. -/
def hookReturn (t : Thread H W) (results : Nat) : Thread H W :=
  let id := t.currentId
  let t :=
    if t.mask.ret then t.report run .ret none ((t.top - results) - t.current.func) results else t
  match (t.frameAt id).previous.bind t.frame? |>.bind Frame.currentPc? with
  | some pc => { t with oldPc := pc }
  | none => t

/-- Report that a function with extra arguments was entered, after they were set apart.  The next
instruction counts as a new line. -/
def hookVarargPrep (t : Thread H W) : Thread H W :=
  if t.current.trap then { t.hookCall run t.currentId with oldPc := 1 } else t

end Thread

end VmInspect
