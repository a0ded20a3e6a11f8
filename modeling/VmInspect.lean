import VmInspect.Value.Integer
import VmInspect.Value.Text
import VmInspect.Bytecode.Listing
import VmInspect.Bytecode.Builder
import VmInspect.Memory.Growth
import VmInspect.Thread.Run
import VmInspect.Proofs.Lines.RoundTrip
import VmInspect.Proofs.Lines.Lookup
import VmInspect.Proofs.Lines.ValidLines
import VmInspect.Proofs.Lines.Density
import VmInspect.Proofs.Bytecode.Encoding
import VmInspect.Proofs.Naming.Paths
import VmInspect.Proofs.Naming.Forward
import VmInspect.Proofs.Naming.Overwrites
import VmInspect.Proofs.Naming.FarPlaces
import VmInspect.Proofs.Naming.Hops
import VmInspect.Proofs.Naming.LiveVariables
import VmInspect.Proofs.Memory.Ledger
import VmInspect.Proofs.Memory.Balance
import VmInspect.Proofs.Memory.Client
import VmInspect.Proofs.Memory.Terms
import VmInspect.Proofs.Memory.Account
import VmInspect.Proofs.Memory.NestedBudgets
import VmInspect.Proofs.Memory.Attempts
import VmInspect.Proofs.Memory.Arrays
import VmInspect.Proofs.Memory.Filling
import VmInspect.Proofs.Memory.Shrinking
import VmInspect.Proofs.Machine.Frames
import VmInspect.Proofs.Machine.Calls
import VmInspect.Proofs.Machine.Varargs
import VmInspect.Proofs.Machine.Nesting
import VmInspect.Proofs.Thread.Logging
import VmInspect.Proofs.Thread.Watching
import VmInspect.Proofs.Thread.Running
import VmInspect.Proofs.Thread.Suspension
import VmInspect.Proofs.Thread.Tracking
import VmInspect.Proofs.Thread.LineEvents
import VmInspect.Proofs.Thread.Calls
import VmInspect.Proofs.Thread.YieldMark
import VmInspect.Proofs.Thread.Budget
import VmInspect.Proofs.Thread.Registration
import VmInspect.Proofs.Thread.Entry
import VmInspect.Proofs.Thread.Callees
import VmInspect.Proofs.Thread.Parts
import VmInspect.Proofs.Thread.SteppingOver
import VmInspect.Proofs.Thread.Observation
import VmInspect.Proofs.Thread.Temporaries
import VmInspect.Proofs.Thread.CountEvents
import VmInspect.Proofs.Thread.Reentry
import VmInspect.Proofs.Thread.Counting
import VmInspect.Proofs.Thread.Slices
import VmInspect.Proofs.Thread.Operations
import VmInspect.Proofs.Machine.Levels
import VmInspect.Proofs.Thread.Levels
import VmInspect.Proofs.Machine.Room
import VmInspect.Proofs.Thread.Room
import VmInspect.Proofs.Thread.Leftovers
import VmInspect.Proofs.Thread.Variables
import VmInspect.Proofs.Machine.Captures
import VmInspect.Proofs.Thread.Transfers
import VmInspect.Proofs.Value.Hexadecimal
import VmInspect.Proofs.Value.Equality
import VmInspect.Proofs.Source.Label
import VmInspect.Proofs.Thread.Failures
