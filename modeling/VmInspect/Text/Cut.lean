/-!
# Cutting a text to a number of bytes

Sizes and places are in bytes of the UTF-8 form.  A text may be cut only at a boundary, that is between two
characters or at an end, so a cut is made at the boundary that is nearest in one direction.
-/

namespace VmInspect.Text

/-- The size of a text in bytes. -/
def byteSize (cs : List Char) : Nat := cs.foldr (fun c size => c.utf8Size + size) 0

@[simp] theorem byteSize_nil : byteSize [] = 0 := rfl

@[simp] theorem byteSize_cons (c : Char) (cs : List Char) :
    byteSize (c :: cs) = c.utf8Size + byteSize cs := rfl

@[simp] theorem byteSize_append (cs ds : List Char) :
    byteSize (cs ++ ds) = byteSize cs + byteSize ds := by
  induction cs with
  | nil => simp
  | cons c cs ih => simp only [List.cons_append, byteSize_cons, ih]; omega

/-- Whether a place is between two characters or at an end. -/
def isBoundary : List Char → Nat → Bool
  | _, 0 => true
  | [], _ + 1 => false
  | c :: cs, i + 1 => decide (c.utf8Size ≤ i + 1) && isBoundary cs (i + 1 - c.utf8Size)

/-- The last boundary up to a place.  There is none if the search runs past the beginning. -/
def floorBoundary? (cs : List Char) (i : Nat) : Option Nat :=
  if isBoundary cs i then some i
  else match i with
    | 0 => none
    | i + 1 => floorBoundary? cs i

/-- The first boundary from a place on.  There is none if the search runs past the end. -/
def ceilBoundary? (cs : List Char) (i : Nat) : Option Nat :=
  if isBoundary cs i then some i
  else if i < byteSize cs then ceilBoundary? cs (i + 1)
  else none
termination_by byteSize cs - i

/-- What stands before a place. -/
def before : List Char → Nat → List Char
  | _, 0 => []
  | [], _ + 1 => []
  | c :: cs, i + 1 => c :: before cs (i + 1 - c.utf8Size)

/-- What stands behind a place. -/
def behind : List Char → Nat → List Char
  | cs, 0 => cs
  | [], _ + 1 => []
  | c :: cs, i + 1 => behind cs (i + 1 - c.utf8Size)

/-- The beginning up to the last boundary in a number of bytes. -/
def takeBytes? (limit : Nat) (cs : List Char) : Option (List Char) :=
  (floorBoundary? cs (min limit (byteSize cs))).map (before cs)

/-- The ending from the first boundary on that leaves a number of bytes. -/
def takeRightBytes? (limit : Nat) (cs : List Char) : Option (List Char) :=
  (ceilBoundary? cs (min (byteSize cs - limit) (byteSize cs))).map (behind cs)

end VmInspect.Text
