/-!
# Names of values

A name comes with the kind of thing it names.
-/

namespace VmInspect

/-- What a name refers to. -/
inductive NameKind where
  | localVariable
  | upvalue
  /-- a string constant -/
  | constant
  /-- a field of the table of globals -/
  | global
  | field
  | method
  /-- a function that an operation calls by itself -/
  | metamethod
  /-- the iterator of a generic loop -/
  | forIterator
  /-- a function called for an event -/
  | hook
deriving DecidableEq, Repr, Inhabited

/-- The words for a kind. -/
def NameKind.text : NameKind → String
  | .localVariable => "local"
  | .upvalue => "upvalue"
  | .constant => "constant"
  | .global => "global"
  | .field => "field"
  | .method => "method"
  | .metamethod => "metamethod"
  | .forIterator => "for iterator"
  | .hook => "hook"

/-- A name with its kind. -/
structure Name where
  kind : NameKind
  /-- the name, or `?` when only the kind is known -/
  name : String
deriving DecidableEq, Repr, Inhabited

namespace Name

/-- What stands for a name that is not known. -/
def unknown : String := "?"

/-- The kind, and the name in quotes. -/
def text (n : Name) : String := n.kind.text ++ " '" ++ n.name ++ "'"

end Name

end VmInspect
