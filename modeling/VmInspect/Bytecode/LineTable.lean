/-!
# Line tables

The line of each instruction is recorded as the distance from the line of the instruction before it.
Where the distance is too long for a byte, and at least once in a stride, the line itself is
recorded as a checkpoint.  A lookup starts at the last checkpoint that is not past the instruction
and adds up the distances from there.  A table without steps belongs to a function whose line
information was removed.
-/

namespace VmInspect

/-- How the line of one instruction is recorded. -/
inductive LineStep where
  /-- the distance from the line of the instruction before -/
  | delta (d : Int)
  /-- the line stands in the checkpoint of this instruction -/
  | checkpoint
deriving DecidableEq, Repr, Inhabited

namespace LineStep

/-- The byte that stands for a checkpoint. -/
def checkpointByte : Int := -128

/-- The signed byte of a step. -/
def byte : LineStep → Int
  | delta d => d
  | checkpoint => checkpointByte

/-- The step of a signed byte. -/
def ofByte (n : Int) : LineStep := if n = checkpointByte then checkpoint else delta n

@[simp] theorem byte_ofByte (n : Int) : (ofByte n).byte = n := by
  unfold ofByte
  split
  · next h => exact h.symm
  · rfl

/-- What the step adds to a line. -/
def amount : LineStep → Int
  | delta d => d
  | checkpoint => 0

end LineStep

/-- The line of one instruction, recorded as it is. -/
structure Checkpoint where
  pc : Nat
  line : Int
deriving DecidableEq, Repr, Inhabited

/-- The lines of the instructions of a function. -/
structure LineTable where
  /-- the line where the function is defined, from which the first distance counts -/
  definedLine : Int := 0
  /-- one step for each instruction -/
  steps : Array LineStep := #[]
  checkpoints : Array Checkpoint := #[]
  /-- how many instructions may pass between two checkpoints -/
  stride : Nat := 0
deriving DecidableEq, Repr, Inhabited

namespace LineTable

/-- Whether the function carries line information. -/
def isPresent (t : LineTable) : Bool := !t.steps.isEmpty

/-! ## Finding the checkpoint -/

/-- A first guess at the index of the last checkpoint that is not past an instruction. There is at
least one checkpoint in a stride, so it is a lower bound in a table written with that stride. -/
def estimate (t : LineTable) (pc : Nat) : Nat :=
  min (pc / max t.stride 1 - 1) (t.checkpoints.size - 1)

/-- From an index down to the first one whose checkpoint is not past the instruction. -/
def retreat (t : LineTable) (pc : Nat) : Nat → Nat
  | 0 => 0
  | i + 1 => if t.checkpoints[i + 1]?.any (pc < ·.pc) then t.retreat pc i else i + 1

/-- From an index up to the last one before a checkpoint that is past the instruction, at most a
number of checkpoints further. -/
def advance (t : LineTable) (pc i : Nat) : Nat → Nat
  | 0 => i
  | n + 1 => if t.checkpoints[i + 1]?.any (·.pc ≤ pc) then t.advance pc (i + 1) n else i

/-- The index of the last checkpoint in a run of those not past the instruction. -/
def checkpointIndex (t : LineTable) (pc : Nat) : Nat :=
  t.advance pc (t.retreat pc (t.estimate pc)) t.checkpoints.size

/-- The checkpoint from which the line of an instruction is counted. -/
def checkpointFor? (t : LineTable) (pc : Nat) : Option Checkpoint :=
  match t.checkpoints[0]? with
  | some first =>
    if first.pc ≤ pc then t.checkpoints[t.checkpointIndex pc]? else none
  | none => none

/-! ## Lookup -/

/-- The line from which the line of an instruction is counted. -/
def baseLine (t : LineTable) (pc : Nat) : Int :=
  match t.checkpointFor? pc with
  | some c => c.line
  | none => t.definedLine

/-- The first instruction whose step is added to the base line. -/
def windowStart (t : LineTable) (pc : Nat) : Nat :=
  match t.checkpointFor? pc with
  | some c => c.pc + 1
  | none => 0

/-- The steps that are added to the base line. There are none past the end of the table. -/
def window (t : LineTable) (pc : Nat) : Array LineStep :=
  if pc < t.steps.size then t.steps.extract (t.windowStart pc) (pc + 1) else #[]

/-- What steps add to a line, one after the other. -/
def total (steps : Array LineStep) : Int := steps.foldl (fun sum s => sum + s.amount) 0

/-- The line of an instruction, if the function carries line information. -/
def line? (t : LineTable) (pc : Nat) : Option Int :=
  if t.isPresent then some (t.baseLine pc + total (t.window pc)) else none

/-- The distance between the lines of two instructions when only distances are recorded after the
first one up to the second. -/
def distance? (t : LineTable) (old new : Nat) : Option Int :=
  if new < t.steps.size then
    let steps := t.steps.extract (old + 1) (new + 1)
    if steps.contains .checkpoint then none else some (total steps)
  else none

/-- Whether two instructions lie on different lines.  Instructions less than half a stride apart
are compared by the distances between them, all others by their lines. -/
def changed (t : LineTable) (old new : Nat) : Bool :=
  if !t.isPresent then false
  else
    let near := old < new ∧ new - old < t.stride / 2
    match if near then t.distance? old new else none with
    | some d => d != 0
    | none => t.line? old != t.line? new

/-! ## The lines with instructions -/

/-- The line of an instruction, counted from the line of the instruction before. -/
def nextLine (t : LineTable) (current : Int) (pc : Nat) : Int :=
  match t.steps[pc]? with
  | some (.delta d) => current + d
  | _ => (t.line? pc).getD current

/-- The lines of the instructions from a given one on, counted from the line before it. -/
def linesFrom (t : LineTable) (current : Int) (pc : Nat) : List Int :=
  if h : pc < t.steps.size then
    let line := t.nextLine current pc
    line :: t.linesFrom line (pc + 1)
  else []
termination_by t.steps.size - pc

/-- All lines that hold an instruction, in ascending order.  The first instruction of a function
with extra arguments is no code of its user, so its line is not reported. -/
def validLines? (t : LineTable) (skipFirst : Bool) : Option (List Int) :=
  if t.isPresent then
    let lines := t.linesFrom t.definedLine 0
    let lines := if skipFirst then lines.drop 1 else lines
    some (lines.mergeSort (· ≤ ·)).eraseReps
  else none

end LineTable

end VmInspect
