/-!
# Places in a source

A position is a line of a labelled source, and a trace entry is one live call with the line it has
reached.
-/

namespace VmInspect

/-- A line of a source. -/
structure Position where
  /-- the label of the source -/
  source : String
  line : Int
deriving DecidableEq, Repr, Inhabited

/-- The label and the line with a colon between them. -/
def Position.text (p : Position) : String := p.source ++ ":" ++ toString p.line

/-- One entry of a traceback. -/
structure TraceEntry where
  /-- the best name known for the function -/
  functionName : Option String
  /-- the label of the source -/
  source : String
  /-- the line being executed; native code has none -/
  line : Option Int
  /-- whether the call replaced its caller -/
  isTailCall : Bool
deriving DecidableEq, Repr, Inhabited

end VmInspect
