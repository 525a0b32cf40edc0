import TimeIds.Json.Fault
import TimeIds.Text.Hex

/-!
Readers of JSON text: the parts that every value is made of.

A reader takes characters off the front of a text and returns what it read with the rest, or the
first fault met from the left. This module holds white space, literal words, strings and the frames
of arrays and objects. The loops over elements and members take at most as many turns as the text
has characters, since every turn shortens it; `size` bounds that length and is found once for the
whole text.
-/
namespace TimeIds.Json

/-- Reads something off the front of a text. -/
abbrev Reader (α : Type) := List Char → Except Fault (α × List Char)

/-- The white space of JSON. -/
def isSpace (c : Char) : Bool := c == ' ' || c == '\n' || c == '\t' || c == '\r'

/-- A text from its first character that is not white space. -/
def skipSpace (cs : List Char) : List Char := cs.dropWhile isSpace

/-- Takes exactly the given characters. -/
def expect : List Char → Reader Unit
  | [], cs => .ok ((), cs)
  | _ :: _, [] => .error .truncated
  | w :: word, c :: cs => if c = w then expect word cs else .error .malformed

/-! ### Strings -/

/-- The 16-bit unit of the four hexadecimal digits at the front of a text. The text is too short if
it has fewer than four bytes left. -/
def hexUnit (cs : List Char) : Except Fault Nat :=
  let front := cs.take 4
  if (front.map Char.utf8Size).foldl (· + ·) 0 < 4 then .error .truncated
  else
    match front.mapM Text.hexValue? with
    | some digits => .ok (digits.foldl (fun n d => 16 * n + d) 0)
    | none => .error .malformed

/-- The character of an escape of one letter. -/
def shortEscape? : Char → Option Char
  | '"' => some '"'
  | '\\' => some '\\'
  | '/' => some '/'
  | 'b' => some '\x08'
  | 'f' => some '\x0c'
  | 'n' => some '\n'
  | 'r' => some '\r'
  | 't' => some '\t'
  | _ => none

/-- A leading surrogate of UTF-16. -/
def isLeading (unit : Nat) : Bool := 0xD800 ≤ unit && unit ≤ 0xDBFF

/-- A trailing surrogate of UTF-16. -/
def isTrailing (unit : Nat) : Bool := 0xDC00 ≤ unit && unit ≤ 0xDFFF

/-- The character of a numeric escape, read after its `\u`, and how many characters it took. A
leading surrogate must be followed by the escape of a trailing one. -/
def numericEscape (cs : List Char) : Except Fault (Char × Nat) := do
  let unit ← hexUnit cs
  if isTrailing unit then throw .malformed
  else if isLeading unit then
    match cs.drop 4 with
    | [] => throw .truncated
    | ['\\'] => throw .truncated
    | '\\' :: 'u' :: rest =>
      let trailing ← hexUnit rest
      if isTrailing trailing then
        pure (Char.ofNat (0x10000 + (unit - 0xD800) * 0x400 + (trailing - 0xDC00)), 10)
      else throw .malformed
    | _ => throw .malformed
  else pure (Char.ofNat unit, 4)

/-- The characters of a string from here on, after those read so far, whose last one comes first. -/
def stringOnto (read : List Char) : Reader (List Char)
  | [] => .error .truncated
  | c :: rest =>
    if c = '"' then .ok (read.reverse, rest)
    else if c = '\\' then
      match rest with
      | [] => .error .truncated
      | e :: rest =>
        if e = 'u' then
          match numericEscape rest with
          | .error fault => .error fault
          | .ok (ch, taken) => stringOnto (ch :: read) (rest.drop taken)
        else
          match shortEscape? e with
          | none => .error .malformed
          | some ch => stringOnto (ch :: read) rest
    else if c.toNat < 0x20 then .error .malformed
    else stringOnto (c :: read) rest
termination_by cs => cs.length
decreasing_by all_goals (simp_wf <;> omega)

/-- A string, read after its opening quote. -/
def stringAfterQuote : Reader String := fun cs =>
  (stringOnto [] cs).map fun r => (String.ofList r.1, r.2)

/-- Passes over a string of which nothing is kept, after its opening quote. Its escapes need not
stand for characters. -/
def skipString : Reader Unit
  | [] => .error .truncated
  | c :: rest =>
    if c = '"' then .ok ((), rest)
    else if c = '\\' then
      match rest with
      | [] => .error .truncated
      | e :: rest =>
        if e = 'u' then
          match hexUnit rest with
          | .error fault => .error fault
          | .ok _ => skipString (rest.drop 4)
        else
          match shortEscape? e with
          | none => .error .malformed
          | some _ => skipString rest
    else if c.toNat < 0x20 then .error .malformed
    else skipString rest
termination_by cs => cs.length
decreasing_by all_goals (simp_wf <;> omega)

/-! ### Arrays -/

/-- Whether an array goes on, read after its bracket or after an element. If it does, the rest
starts at the element; if not, at the closing bracket. -/
def hasElement (first : Bool) : Reader Bool := fun cs =>
  match skipSpace cs with
  | [] => .error .truncated
  | ']' :: rest => .ok (false, ']' :: rest)
  | c :: rest =>
    if first then .ok (true, c :: rest)
    else if c = ',' then
      match skipSpace rest with
      | [] => .error .truncated
      | ']' :: _ => .error .malformed
      | rest => .ok (true, rest)
    else .error .malformed

/-- The end of an array that may not go on. -/
def closeArray : Reader Unit := fun cs =>
  match skipSpace cs with
  | [] => .error .truncated
  | ']' :: rest => .ok ((), rest)
  | _ => .error .malformed

/-- The elements of an array from here on, after those read so far, whose last one comes first. -/
def elementsOnto {α : Type} (element : Reader α) : Nat → List α → Reader (List α)
  | 0, _, _ => .error .truncated
  | turns + 1, read, cs =>
    match hasElement read.isEmpty cs with
    | .error fault => .error fault
    | .ok (false, cs) => (closeArray cs).map fun r => (read.reverse, r.2)
    | .ok (true, cs) =>
      match element cs with
      | .error fault => .error fault
      | .ok (a, cs) => elementsOnto element turns (a :: read) cs

/-- The elements of an array, read after its opening bracket, in a text of at most `size`
characters. -/
def elements {α : Type} (size : Nat) (element : Reader α) : Reader (List α) :=
  elementsOnto element (size + 1) []

/-! ### Objects -/

/-- The colon between a key and its value. -/
def colon : Reader Unit := fun cs =>
  match skipSpace cs with
  | [] => .error .truncated
  | ':' :: rest => .ok ((), rest)
  | _ => .error .malformed

/-- Whether an object goes on, read after its brace or after a member. If it does, the rest starts
inside the quotes of the key; if not, after the closing brace. -/
def hasMember (first : Bool) : Reader Bool := fun cs =>
  match skipSpace cs with
  | [] => .error .truncated
  | '}' :: rest => .ok (false, rest)
  | c :: rest =>
    if first then
      if c = '"' then .ok (true, rest) else .error .malformed
    else if c = ',' then
      match skipSpace rest with
      | [] => .error .truncated
      | '"' :: rest => .ok (true, rest)
      | _ => .error .malformed
    else .error .malformed

/-- The members of an object from here on, each one changing what is known so far. -/
def membersOnto {σ : Type} (member : σ → Reader σ) : Nat → Bool → σ → Reader σ
  | 0, _, _, _ => .error .truncated
  | turns + 1, first, known, cs =>
    match hasMember first cs with
    | .error fault => .error fault
    | .ok (false, cs) => .ok (known, cs)
    | .ok (true, cs) =>
      match member known cs with
      | .error fault => .error fault
      | .ok (known, cs) => membersOnto member turns false known cs

/-- The members of an object, read after its opening brace, in a text of at most `size`
characters. -/
def members {σ : Type} (size : Nat) (member : σ → Reader σ) (start : σ) : Reader σ :=
  membersOnto member (size + 1) true start

end TimeIds.Json
