import VmInspect.Text.Cut

/-!
# Labels of sources

A source is named by a text whose first character tells its kind: `=` is followed by words to show
as they are, `@` by the path of a file, and anything else is the program itself.  The label of a
source is short enough for a message: words keep their beginning, a path its ending, and a program
the beginning of its first line.
-/

namespace VmInspect

namespace Source

/-- The size of a buffer that holds a label and one closing byte. -/
def labelSize : Nat := 60

/-- What stands for the part left out. -/
def ellipsis : List Char := "...".toList

/-- What stands in front of a quoted program. -/
def programOpening : List Char := "[string \"".toList

/-- What stands behind a quoted program. -/
def programClosing : List Char := "\"]".toList

/-- The room for the text of a program. -/
def programRoom : Nat :=
  labelSize - 1 - (Text.byteSize programOpening + Text.byteSize ellipsis +
    Text.byteSize programClosing)

/-- The label of words: their beginning. -/
def wordsLabel? (words : List Char) : Option (List Char) :=
  if Text.byteSize words < labelSize then some words
  else Text.takeBytes? (labelSize - 1) words

/-- The label of a path: the path, or an ellipsis and the ending that fits. -/
def pathLabel? (path : List Char) : Option (List Char) :=
  if Text.byteSize path < labelSize then some path
  else (Text.takeRightBytes? (labelSize - 1 - Text.byteSize ellipsis) path).map (ellipsis ++ ·)

/-- The label of a program: the whole program when it is short and has one line, or else the
beginning of its first line and an ellipsis. -/
def programLabel? (program : List Char) : Option (List Char) :=
  let shown :=
    if Text.byteSize program < programRoom ∧ '\n' ∉ program then some program
    else
      (Text.takeBytes? (min (Text.byteSize (program.takeWhile (· ≠ '\n'))) programRoom) program).map
        (· ++ ellipsis)
  shown.map (programOpening ++ · ++ programClosing)

/-- The label of a source, by characters.  There is none if a cut finds no boundary. -/
def labelChars? : List Char → Option (List Char)
  | '=' :: words => wordsLabel? words
  | '@' :: path => pathLabel? path
  | program => programLabel? program

/-- The label of a source. -/
def label (source : String) : String := String.ofList ((labelChars? source.toList).getD [])

end Source

end VmInspect
