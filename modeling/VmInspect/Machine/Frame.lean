/-!
# Call frames

A frame is one call in progress: the stack slot of the called function, whose registers follow it,
the limit of the frame, the frame that called it, and what the call is doing at present.
-/

namespace VmInspect

/-- What is going on in a call. -/
structure CallFlags where
  /-- an event is being reported -/
  hooked : Bool := false
  /-- the call replaced its caller -/
  tailCall : Bool := false
  /-- the report of the last event suspended the thread -/
  hookYield : Bool := false
  /-- a finalizer is being called -/
  finalizer : Bool := false
  /-- values moved across the call are known -/
  transfer : Bool := false
deriving DecidableEq, Repr, Inhabited

namespace CallFlags

/-- The flags of either. -/
def insert (a b : CallFlags) : CallFlags where
  hooked := a.hooked || b.hooked
  tailCall := a.tailCall || b.tailCall
  hookYield := a.hookYield || b.hookYield
  finalizer := a.finalizer || b.finalizer
  transfer := a.transfer || b.transfer

/-- The flags of the first without those of the second. -/
def remove (a b : CallFlags) : CallFlags where
  hooked := a.hooked && !b.hooked
  tailCall := a.tailCall && !b.tailCall
  hookYield := a.hookYield && !b.hookYield
  finalizer := a.finalizer && !b.finalizer
  transfer := a.transfer && !b.transfer

/-- Whether all flags of the second are set in the first. -/
def contains (a b : CallFlags) : Bool := a.insert b == a

end CallFlags

/-- The values that move across a call, counted from the slot of the function. -/
structure Transfer where
  first : Nat := 0
  count : Nat := 0
deriving DecidableEq, Repr, Inhabited

/-- How far interpreted code has come. -/
structure Progress where
  /-- the next instruction -/
  savedPc : Nat := 0
  /-- whether events are looked for before each instruction -/
  trap : Bool := false
  /-- the extra arguments below the function -/
  extraArgs : Nat := 0
  /-- how far the function was moved up for them -/
  shift : Nat := 0
deriving DecidableEq, Repr, Inhabited

/-- What a frame runs. -/
inductive FrameCode where
  /-- interpreted instructions -/
  | script (progress : Progress)
  | native
deriving DecidableEq, Repr, Inhabited

namespace FrameCode

def progress? : FrameCode → Option Progress
  | script progress => some progress
  | native => none

/-- Change the progress of interpreted code. Native code has none. -/
def modify (change : Progress → Progress) : FrameCode → FrameCode
  | script progress => script (change progress)
  | native => native

@[simp] theorem progress?_modify (change : Progress → Progress) (c : FrameCode) :
    (c.modify change).progress? = c.progress?.map change := by
  cases c <;> rfl

end FrameCode

/-- One call in progress. -/
structure Frame where
  /-- the slot of the called function -/
  func : Nat
  /-- the first slot past the frame -/
  top : Nat
  /-- the calling frame -/
  previous : Option Nat
  flags : CallFlags := {}
  code : FrameCode
  /-- the values moved across the call, while the flag says so -/
  transfer : Transfer := {}
deriving DecidableEq, Repr, Inhabited

namespace Frame

/-- A frame about to run the first instruction of an interpreted function. -/
def script (func top : Nat) (previous : Option Nat) : Frame where
  func := func
  top := top
  previous := previous
  code := .script {}

/-- A frame of a native function. -/
def native (func top : Nat) (previous : Option Nat) : Frame where
  func := func
  top := top
  previous := previous
  code := .native

/-- The first register. -/
def base (f : Frame) : Nat := f.func + 1

/-- The progress of interpreted code. -/
def progress? (f : Frame) : Option Progress := f.code.progress?

def isScript (f : Frame) : Bool := f.progress?.isSome

/-- The next instruction of interpreted code. -/
def savedPc? (f : Frame) : Option Nat := f.progress?.map Progress.savedPc

/-- The instruction being executed. -/
def currentPc? (f : Frame) : Option Nat := f.savedPc?.map (· - 1)

/-- Whether events are looked for before each instruction. -/
def trap (f : Frame) : Bool := f.progress?.any Progress.trap

/-- The number of extra arguments. -/
def extraArgs (f : Frame) : Nat := (f.progress?.map Progress.extraArgs).getD 0

/-- How far the function was moved up for its extra arguments. -/
def shift (f : Frame) : Nat := (f.progress?.map Progress.shift).getD 0

/-! ## Changes

Those of the progress leave a native frame alone. -/

/-- Change the progress of interpreted code. -/
def modifyProgress (f : Frame) (change : Progress → Progress) : Frame :=
  { f with code := f.code.modify change }

@[simp] theorem progress?_modifyProgress (f : Frame) (change : Progress → Progress) :
    (f.modifyProgress change).progress? = f.progress?.map change :=
  f.code.progress?_modify change

def setSavedPc (f : Frame) (pc : Nat) : Frame :=
  f.modifyProgress fun p => { p with savedPc := pc }

def setTrap (f : Frame) (on : Bool) : Frame :=
  f.modifyProgress fun p => { p with trap := on }

def setVarargs (f : Frame) (extra shift : Nat) : Frame :=
  f.modifyProgress fun p => { p with extraArgs := extra, shift }

@[simp] theorem savedPc?_setSavedPc (f : Frame) (pc : Nat) :
    (f.setSavedPc pc).savedPc? = f.savedPc?.map fun _ => pc := by
  simp [savedPc?, setSavedPc, Function.comp_def]

@[simp] theorem savedPc?_setTrap (f : Frame) (on : Bool) : (f.setTrap on).savedPc? = f.savedPc? := by
  simp [savedPc?, setTrap, Function.comp_def]

@[simp] theorem trap_setSavedPc (f : Frame) (pc : Nat) : (f.setSavedPc pc).trap = f.trap := by
  cases h : f.code <;> simp [trap, setSavedPc, progress?, modifyProgress, FrameCode.progress?,
    FrameCode.modify, h]

@[simp] theorem trap_setTrap (f : Frame) (on : Bool) :
    (f.setTrap on).trap = (on && f.isScript) := by
  cases h : f.code <;> simp [trap, setTrap, isScript, progress?, modifyProgress,
    FrameCode.progress?, FrameCode.modify, h]

def insertFlags (f : Frame) (flags : CallFlags) : Frame :=
  { f with flags := f.flags.insert flags }

def removeFlags (f : Frame) (flags : CallFlags) : Frame :=
  { f with flags := f.flags.remove flags }

end Frame

end VmInspect
