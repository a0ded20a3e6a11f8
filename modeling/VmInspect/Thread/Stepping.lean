import VmInspect.Thread.Calls

/-!
# Events of single instructions

Before each instruction of a frame that is watched, a count event is due when the budget is used up,
and a line event when the instruction is on another line than the one before or execution went back.
When the hook suspends the thread the instruction is not executed; it is looked at once more after
the thread is resumed, and its events are not reported again.
-/

namespace VmInspect

namespace Thread

variable {H W : Type} (run : Callback H W)

/-- Report that the current frame was entered, before its first instruction.  The result says whether
instructions are watched.  A function with extra arguments is reported when they are set apart. -/
def traceCall (t : Thread H W) : Bool × Thread H W :=
  let id := t.currentId
  match t.frameProto? id with
  | none => (false, t)
  | some proto =>
    let t := t.onFrame id (·.setTrap true)
    if t.current.savedPc? = some 0 then
      if proto.isVararg then (false, t)
      else if t.current.flags.hookYield then (true, t)
      else (true, t.hookCall run id)
    else (true, t)

/-- One less, in 32 bits. -/
def decrement (n : Int) : Int := Int.bmod (n - 1) 4294967296

/-- Whether the instruction is the one at which the budget is used up. -/
def countIsDue (t : Thread H W) : Bool := decrement t.countLeft == 0 && t.mask.count

/-- Charge an instruction to the budget. -/
def chargeCount (t : Thread H W) : Thread H W :=
  { t with countLeft := if t.countIsDue then t.countBudget else decrement t.countLeft }

/-- Whether an instruction begins a line: it is on another line than the last one, or not behind
it. -/
def beginsLine (t : Thread H W) (proto : Proto) (pc : Nat) : Bool :=
  let old := if t.oldPc < proto.code.size then t.oldPc else 0
  decide (pc ≤ old) || proto.lines.changed old pc

/-- Report a line event, if the instruction begins a line. -/
def reportLine (t : Thread H W) (proto : Proto) (pc : Nat) : Thread H W :=
  let t := if t.beginsLine proto pc then t.report run .line (proto.line? pc) 0 0 else t
  { t with oldPc := pc }

/-- Keep the register window, unless the instruction takes values up to the top. -/
def protectWindow (t : Thread H W) (proto : Proto) (pc : Nat) : Thread H W :=
  if proto.code[pc]?.any Instruction.usesOpenTop then t else { t with top := t.current.top }

/-- Report the events of an instruction. -/
def reportEvents (t : Thread H W) (proto : Proto) (pc : Nat) (mask : HookMask)
    (countDue : Bool) : Thread H W :=
  let t := t.protectWindow proto pc
  let t := if countDue then t.report run .count none 0 0 else t
  if mask.line then t.reportLine run proto pc else t

/-- The flag of a frame that was suspended by a hook. -/
def yieldFlag : CallFlags where
  hookYield := true

/-- Look for events before the instruction at a place of the current frame.  The result says whether
to go on watching; it is a failure when the thread was suspended. -/
def traceExec (t : Thread H W) (pc : Nat) : Except Failure Bool × Thread H W :=
  let id := t.currentId
  let mask := t.mask
  match t.frameProto? id with
  | none => (.ok false, t)
  | some proto =>
    if !mask.watchesInstructions then (.ok false, t.onFrame id (·.setTrap false))
    else
      let t := t.onFrame id (·.setSavedPc (pc + 1))
      let countDue := t.countIsDue
      let t := t.chargeCount
      if !countDue && !mask.line then (.ok true, t)
      else if t.current.flags.hookYield then (.ok true, t.onFrame id (·.removeFlags yieldFlag))
      else
        let t := t.reportEvents run proto pc mask countDue
        if t.suspended then
          let t := if countDue then { t with countLeft := 1 } else t
          (.error .yielded, t.onFrame id (·.insertFlags yieldFlag))
        else (.ok true, t)

/-- Go on with a thread that a hook has suspended. The instruction that was about to be executed
comes next. -/
def resume (t : Thread H W) : Thread H W :=
  if t.suspended then
    { t with suspended := false }.onFrame t.currentId fun f =>
      (f.currentPc?.map f.setSavedPc).getD f
  else t

end Thread

end VmInspect
