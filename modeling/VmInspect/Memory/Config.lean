/-!
# Configuration of the memory manager

A configuration is read from settings that are given by name or by position.  Settings that are not
given have their defaults, names that mean nothing are passed over, and a setting of the wrong type
is refused.
-/

namespace VmInspect.Memory

/-- The least capacity a growing array starts with, unless another is asked for. -/
def defaultMinArraySize : Nat := 4

/-- The settings of a manager. -/
structure Config where
  /-- whether every allocation that could be retried fails at first, so that it collects -/
  emergencyStress : Bool := false
  /-- the least capacity after a growth -/
  minArraySize : Nat := defaultMinArraySize
deriving DecidableEq, Repr, Inhabited

namespace Config

def withEmergencyStress (c : Config) (on : Bool) : Config := { c with emergencyStress := on }

/-- A least capacity of zero acts as one. -/
def withMinArraySize (c : Config) (size : Nat) : Config := { c with minArraySize := max size 1 }

/-! ## Reading -/

/-- A setting as it was given. -/
inductive Setting where
  | switch (on : Bool)
  | count (n : Nat)
  | other
deriving DecidableEq, Repr, Inhabited

/-- The number of counts. -/
def countRange : Nat := 18446744073709551616

def setEmergencyStress? (c : Config) : Setting → Option Config
  | .switch on => some { c with emergencyStress := on }
  | _ => none

def setMinArraySize? (c : Config) : Setting → Option Config
  | .count n => if n < countRange then some { c with minArraySize := n } else none
  | _ => none

/-- Take over a setting by its name. -/
def setNamed? (c : Config) (name : String) (s : Setting) : Option Config :=
  if name = "emergency_gc_stress" then c.setEmergencyStress? s
  else if name = "min_array_size" then c.setMinArraySize? s
  else some c

/-- Read settings given by name. -/
def ofNamed? (settings : List (String × Setting)) : Option Config :=
  settings.foldlM (fun (c : Config) entry => c.setNamed? entry.1 entry.2) {}

/-- Read settings given in order. -/
def ofPositional? : List Setting → Option Config
  | [] => some {}
  | [stress] => ({} : Config).setEmergencyStress? stress
  | [stress, size] => do (← ({} : Config).setEmergencyStress? stress).setMinArraySize? size
  | _ => none

end Config

end VmInspect.Memory
