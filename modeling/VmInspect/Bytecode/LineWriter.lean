import VmInspect.Bytecode.LineTable

/-!
# Writing a line table

The writer is told the line of one instruction after the other.  It records the distance from the
line before, unless the distance does not fit a byte or a stride of instructions has passed since the
last checkpoint; then it records a checkpoint.
-/

namespace VmInspect

/-- A line table in the making. -/
structure LineWriter where
  table : LineTable
  /-- the line of the instruction before -/
  previousLine : Int := 0
  /-- the instructions since the last checkpoint, that one included -/
  sinceCheckpoint : Nat := 0
deriving DecidableEq, Repr, Inhabited

namespace LineWriter

/-- How many instructions may pass between two checkpoints when nothing else is asked for. -/
def defaultStride : Nat := 128

/-- A distance has to be nearer to zero than this to be recorded as such. -/
def deltaLimit : Nat := 128

/-- An empty table. -/
def empty : LineWriter where
  table := { stride := defaultStride }

/-- The same with another stride. A stride is at least one. -/
def withStride (w : LineWriter) (stride : Nat) : LineWriter :=
  { w with table := { w.table with stride := max stride 1 } }

/-- The same for a function defined at a line, from which distances count. -/
def withDefinedLine (w : LineWriter) (line : Int) : LineWriter :=
  { w with table := { w.table with definedLine := line }, previousLine := line }

/-- Whether the distance to a line fits a byte. -/
def fits (w : LineWriter) (line : Int) : Bool := (line - w.previousLine).natAbs < deltaLimit

/-- Record the line of the next instruction as the distance from the line before. -/
def recordDelta (w : LineWriter) (line : Int) : LineWriter where
  table := { w.table with steps := w.table.steps.push (.delta (line - w.previousLine)) }
  previousLine := line
  sinceCheckpoint := w.sinceCheckpoint + 1

/-- Record the line of the next instruction as a checkpoint. -/
def recordCheckpoint (w : LineWriter) (line : Int) : LineWriter :=
  let checkpoint : Checkpoint := ⟨w.table.steps.size, line⟩
  { table :=
      { w.table with
        steps := w.table.steps.push .checkpoint
        checkpoints := w.table.checkpoints.push checkpoint }
    previousLine := line
    sinceCheckpoint := 1 }

/-- Record the line of the next instruction. -/
def record (w : LineWriter) (line : Int) : LineWriter :=
  if w.fits line && w.sinceCheckpoint < w.table.stride then w.recordDelta line
  else w.recordCheckpoint line

@[simp] theorem size_steps_record (w : LineWriter) (line : Int) :
    (w.record line).table.steps.size = w.table.steps.size + 1 := by
  unfold record
  split
  · simp [recordDelta]
  · simp [recordCheckpoint]

@[simp] theorem previousLine_record (w : LineWriter) (line : Int) :
    (w.record line).previousLine = line := by
  unfold record
  split <;> rfl

@[simp] theorem stride_record (w : LineWriter) (line : Int) :
    (w.record line).table.stride = w.table.stride := by
  unfold record
  split <;> rfl

@[simp] theorem definedLine_record (w : LineWriter) (line : Int) :
    (w.record line).table.definedLine = w.table.definedLine := by
  unfold record
  split <;> rfl

/-- The table, or one without line information. -/
def finish (w : LineWriter) (keepLines : Bool) : LineTable :=
  if keepLines then w.table else { w.table with steps := #[], checkpoints := #[] }

end LineWriter

end VmInspect
