import VmInspect.Double.Text
import VmInspect.Text.Quoted
import VmInspect.Value.Basic

/-!
# The written forms of a value

`Value.text` is the form a program shows, in which a text stands for itself and an object shows
its type and id.  `Value.inspect` names the representation and quotes texts.
-/

namespace VmInspect

namespace Value

/-- An id in lower-case hexadecimal digits. -/
def idText (id : Nat) : String := "0x" ++ String.ofList (Nat.toDigits 16 id)

/-- The word for a boolean. -/
def booleanText (b : Bool) : String := if b then "true" else "false"

def text : Value → String
  | nil => "nil"
  | boolean b => booleanText b
  | integer n => toString n.toInt
  | float x => x.text
  | string s => s
  | table id => "table: " ++ idText id
  | function id => "function: " ++ idText id
  | userdata id => "userdata: " ++ idText id

/-- A representation with its content in parentheses. -/
def tagged (tag content : String) : String := tag ++ "(" ++ content ++ ")"

def inspect : Value → String
  | nil => "Nil"
  | boolean b => tagged "Boolean" (booleanText b)
  | integer n => tagged "Integer" (toString n.toInt)
  | float x => tagged "Float" x.inspect
  | string s => tagged "String" (Text.quote s)
  | table id => tagged "Table" (toString id)
  | function id => tagged "Function" (toString id)
  | userdata id => tagged "Userdata" (toString id)

end Value

end VmInspect
