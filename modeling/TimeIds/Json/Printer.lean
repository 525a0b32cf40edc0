import TimeIds.Instances

/-!
JSON objects on one line, for the output of commands. The members are written in the order given,
without blanks.
-/
namespace TimeIds.Json

/-- A value that stands in an object of one line. -/
inductive Scalar
  | null
  | bool (b : Bool)
  | integer (n : Int)
  | text (s : String)
  /-- A number with that many digits after the point. -/
  | fixed (mantissa : Nat) (places : Nat)

/-- How a character is written inside a string. -/
def escapeChar (c : Char) : String :=
  match c with
  | '"' => "\\\""
  | '\\' => "\\\\"
  | '\x08' => "\\b"
  | '\x0c' => "\\f"
  | '\n' => "\\n"
  | '\r' => "\\r"
  | '\t' => "\\t"
  | c =>
    if c.toNat < 0x20 then
      "\\u00" ++ (if c.toNat < 0x10 then "0" else "1") ++
        String.ofList (Nat.toDigits 16 (c.toNat % 16))
    else c.toString

/-- A string between quotes. -/
def quoteText (s : String) : String :=
  "\"" ++ String.join (s.toList.map escapeChar) ++ "\""

namespace Scalar

/-- The text of a value. -/
def render : Scalar → String
  | null => "null"
  | bool b => if b then "true" else "false"
  | integer n => toString n
  | text s => quoteText s
  | fixed mantissa places =>
    let digits := toString (mantissa % 10 ^ places)
    toString (mantissa / 10 ^ places) ++ "." ++
      String.ofList (List.replicate (places - digits.length) '0') ++ digits

end Scalar

/-- An object on one line. -/
def objectLine (members : List (String × Scalar)) : String :=
  "\x7b" ++ String.intercalate "," (members.map fun (k, v) => quoteText k ++ ":" ++ v.render) ++
    "\x7d"

end TimeIds.Json
