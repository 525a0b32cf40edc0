import TimeIds.Text.Hex
import TimeIds.Text.Unseen

/-!
A character between single quotes, for messages.

NUL, tab, line feed, carriage return, the quote and the backslash have short escapes; a character
that cannot be shown is written by its code in braces; every other one stands for itself.
-/
namespace TimeIds.Text

/-- How a character is written between the quotes. -/
def shownChar (c : Char) : List Char :=
  match c with
  | '\x00' => ['\\', '0']
  | '\t' => ['\\', 't']
  | '\n' => ['\\', 'n']
  | '\r' => ['\\', 'r']
  | '\'' => ['\\', '\'']
  | '\\' => ['\\', '\\']
  | c => if isUnseen c then ['\\', 'u', '\x7b'] ++ hexNumeral c.toNat ++ ['\x7d'] else [c]

/-- A character in single quotes. -/
def quoted (c : Char) : String :=
  String.ofList ('\'' :: shownChar c ++ ['\''])

example : quoted '-' = "'-'" := by decide +kernel
example : quoted '\x1b' = "'\\u\x7b1b\x7d'" := by decide +kernel
example : quoted '\u0301' = "'\\u\x7b301\x7d'" := by decide +kernel
example : quoted '"' = "'\"'" := by decide +kernel

end TimeIds.Text
