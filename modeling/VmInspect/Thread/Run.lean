import VmInspect.Bytecode.Place
import VmInspect.Thread.Stepping

/-!
# Running a frame

The control flow of an interpreted frame: jumps jump, the extra arguments are set apart where the
code says so, a return leaves the frame, and every other instruction is followed by the next one.
-/

namespace VmInspect

/-- How a run ended. -/
inductive RunEnd where
  /-- all steps were used -/
  | outOfSteps
  /-- the next instruction lies outside the code -/
  | outOfCode
  /-- the frame returned -/
  | returned
  /-- nothing could be run, or a hook suspended the thread -/
  | failed (f : Failure)
deriving DecidableEq, Repr, Inhabited

/-- What became of a run. -/
structure Run (H W : Type) where
  thread : Thread H W
  /-- the places of the executed instructions, in order -/
  executed : List Nat
  ending : RunEnd

namespace Run

variable {H W : Type}

/-- A run that ends before it executes an instruction. -/
def stop (ending : RunEnd) (t : Thread H W) : Run H W := ⟨t, [], ending⟩

/-- A run that first executes the instruction at a place. -/
def execute (pc : Nat) (rest : Run H W) : Run H W :=
  { rest with executed := pc :: rest.executed }

/-- The number of executed instructions, or what ended the run early. -/
def result (r : Run H W) : Except Failure Nat :=
  match r.ending with
  | .failed f => .error f
  | _ => .ok r.executed.length

end Run

namespace Thread

variable {H W : Type} (run : Callback H W)

/-- Where a jump goes. A place before the first instruction is counted from the end of all
places. -/
def jumpTarget (pc : Nat) (i : Instruction) : Nat := Place.ofInt ((pc : Int) + 1 + i.jumpDistance)

/-- Whether an instruction returns from its function. -/
def isReturn (i : Instruction) : Bool :=
  i.opcode == .ret || i.opcode == .return0 || i.opcode == .return1

/-- Set the extra arguments of a function apart. The result says whether its instructions are
watched. -/
def prepareVarargs (t : Thread H W) (id pc : Nat) (i : Instruction) : Bool × Thread H W :=
  let t := t.onFrame id (·.setSavedPc (pc + 1))
  let t := t.onMachine (·.adjustVarargs i.a)
  let t := t.hookVarargPrep run
  (((t.frame? id).map Frame.trap).getD false, t)

/-- Execute an instruction that does not return. -/
def execute (t : Thread H W) (id pc : Nat) (trap : Bool) (i : Instruction) :
    Bool × Thread H W :=
  let (trap, t) := if i.opcode = .varargPrep then t.prepareVarargs run id pc i else (trap, t)
  let next := if i.opcode = .jump then jumpTarget pc i else pc + 1
  (trap, t.onFrame id (·.setSavedPc next))

/-- Return from a frame at a place, with no results. -/
def returnFrom (t : Thread H W) (id pc : Nat) : Thread H W :=
  ((t.onFrame id (·.setSavedPc (pc + 1))).popFrame run 0).2

/-- Look for events before an instruction, if instructions are watched. -/
def watch (t : Thread H W) (trap : Bool) (pc : Nat) : Except Failure Bool × Thread H W :=
  if trap then t.traceExec run pc else (.ok false, t)

/-- Run a frame for at most a number of instructions. -/
def runFrom (proto : Proto) (id : Nat) : Nat → Bool → Thread H W → Run H W
  | 0, _, t => .stop .outOfSteps t
  | steps + 1, trap, t =>
    let pc := ((t.frame? id).bind Frame.savedPc?).getD 0
    match proto.code[pc]? with
    | none => .stop .outOfCode t
    | some i =>
      match t.watch run trap pc with
      | (.error f, t) => .stop (.failed f) t
      | (.ok trap, t) =>
        .execute pc <|
          if isReturn i then .stop .returned (t.returnFrom run id pc)
          else
            let (trap, t) := t.execute run id pc trap i
            runFrom proto id steps trap t

/-- Get ready to run the current frame. The result says whether instructions are watched. -/
def beginRun (t : Thread H W) : Bool × Thread H W :=
  if t.mask.isEmpty then (false, t) else t.traceCall run

/-- Run the current frame for at most a number of instructions. -/
def runFrame (t : Thread H W) (maxSteps : Nat) : Run H W :=
  match t.frameProto? t.currentId with
  | none => .stop (.failed (.runtime "not an interpreted frame")) t
  | some proto =>
    let (trap, ready) := t.beginRun run
    runFrom run proto t.currentId maxSteps trap ready

end Thread

end VmInspect
