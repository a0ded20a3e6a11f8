import VmInspect.Text.Visible

/-!
# Quoted text

A text between double quotes in which every character that could be mistaken is escaped: the
quote and the backslash by a backslash, the common controls by a letter, and every other character
that does not show by itself by its code point in hexadecimal.
-/

namespace VmInspect.Text

/-- The code point between braces. -/
def codePointEscape (c : Char) : List Char :=
  ['\\', 'u', '\x7b'] ++ Nat.toDigits 16 c.toNat ++ ['\x7d']

/-- How one character stands inside quotes. -/
def escape (c : Char) : List Char :=
  match c with
  | '\x00' => ['\\', '0']
  | '\t' => ['\\', 't']
  | '\r' => ['\\', 'r']
  | '\n' => ['\\', 'n']
  | '"' => ['\\', '"']
  | '\\' => ['\\', '\\']
  | c => if isVisible c then [c] else codePointEscape c

/-- The text between double quotes. -/
def quote (s : String) : String :=
  String.ofList ('"' :: s.toList.flatMap escape ++ ['"'])

end VmInspect.Text
