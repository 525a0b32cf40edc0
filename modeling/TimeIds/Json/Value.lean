import TimeIds.Json.Numeral

/-!
Values of JSON text: those that are kept, those that are passed over, and those that do not fit.

Of a kept value only a whole number and a string are told apart, since nothing else can be used as
an attribute. A kept value may open only so many arrays and objects inside one another; a value that
is passed over may open any number.
-/
namespace TimeIds.Json

/-- A kept value. -/
inductive Value
  /-- A whole number of at most 64 bits. -/
  | word (n : UInt64)
  | text (s : String)
  /-- Anything else. -/
  | other
deriving DecidableEq, Repr

/-- How many arrays and objects of a kept text may be open at once. -/
def maxDepth : Nat := 127

/-- One of the words `null`, `true` and `false`, whose first letter is `c`. -/
def literal (c : Char) : Reader Unit := fun cs =>
  match c with
  | 'n' => expect "null".toList cs
  | 't' => expect "true".toList cs
  | 'f' => expect "false".toList cs
  | _ => .error .malformed

/-- Whether a number starts with that character. -/
def startsNumeral (c : Char) : Bool := c == '-' || c.isDigit

/-- A member of a kept object, whose key and value are not used. -/
def keptMember (value : Reader Value) : Unit → Reader Unit := fun _ cs => do
  let (_, cs) ← stringAfterQuote cs
  let (_, cs) ← colon cs
  let (_, cs) ← value cs
  pure ((), cs)

/-- A kept value that may open `depth` arrays and objects inside one another. -/
def value (size : Nat) : Nat → Reader Value := fun depth cs =>
  match skipSpace cs with
  | [] => .error .truncated
  | c :: rest =>
    if c = '"' then (stringAfterQuote rest).map fun r => (.text r.1, r.2)
    else if startsNumeral c then
      (keptNumeral (c :: rest)).map fun r => (match r.1.word? with
        | some n => .word n
        | none => .other, r.2)
    else if c = '[' then
      match depth with
      | 0 => .error .malformed
      | depth + 1 => (elements size (value size depth) rest).map fun r => (.other, r.2)
    else if c = '{' then
      match depth with
      | 0 => .error .malformed
      | depth + 1 =>
        (members size (keptMember (value size depth)) () rest).map fun r => (.other, r.2)
    else (literal c (c :: rest)).map fun r => (.other, r.2)

/-- A kept value, or nothing where `null` stands. -/
def optionalValue (size depth : Nat) : Reader (Option Value) := fun cs =>
  match skipSpace cs with
  | 'n' :: rest => (literal 'n' ('n' :: rest)).map fun r => (none, r.2)
  | cs => (value size depth cs).map fun r => (some r.1, r.2)

/-! ### Passing over values -/

/-- An array or an object around the place that is reached. -/
inductive Frame
  | array
  | object
deriving DecidableEq, Repr

/-- Passes over a key, read after its opening quote, and its colon. -/
def skipKey : Reader Unit := fun cs => do
  let (_, cs) ← skipString cs
  colon cs

/-- Passes over a value that holds no other, or into one that does, up to the first value there. -/
def skipInto : Reader (Option Frame) := fun cs =>
  match skipSpace cs with
  | [] => .error .truncated
  | c :: rest =>
    if c = '"' then (skipString rest).map fun r => (none, r.2)
    else if startsNumeral c then (numeral .malformed (c :: rest)).map fun r => (none, r.2)
    else if c = '[' then
      match hasElement true rest with
      | .error fault => .error fault
      | .ok (false, cs) => (closeArray cs).map fun r => (none, r.2)
      | .ok (true, cs) => .ok (some .array, cs)
    else if c = '{' then
      match hasMember true rest with
      | .error fault => .error fault
      | .ok (false, cs) => .ok (none, cs)
      | .ok (true, cs) => (skipKey cs).map fun r => (some .object, r.2)
    else (literal c (c :: rest)).map fun r => (none, r.2)

/-- Leaves the frames that end after a value, and goes on to the next value in the first that does
not end. The frames are those around the place, the innermost first. -/
def leaveFrames : List Frame → Reader (List Frame)
  | [], cs => .ok ([], cs)
  | .array :: outer, cs =>
    match hasElement false cs with
    | .error fault => .error fault
    | .ok (true, cs) => .ok (.array :: outer, cs)
    | .ok (false, cs) =>
      match closeArray cs with
      | .error fault => .error fault
      | .ok (_, cs) => leaveFrames outer cs
  | .object :: outer, cs =>
    match hasMember false cs with
    | .error fault => .error fault
    | .ok (true, cs) => (skipKey cs).map fun r => (.object :: outer, r.2)
    | .ok (false, cs) => leaveFrames outer cs

/-- Passes over values until no frame is left. -/
def skipFrames : Nat → List Frame → Reader Unit
  | 0, _, _ => .error .truncated
  | turns + 1, frames, cs =>
    match skipInto cs with
    | .error fault => .error fault
    | .ok (some frame, cs) => skipFrames turns (frame :: frames) cs
    | .ok (none, cs) =>
      match leaveFrames frames cs with
      | .error fault => .error fault
      | .ok ([], cs) => .ok ((), cs)
      | .ok (frame :: outer, cs) => skipFrames turns (frame :: outer) cs

/-- Passes over a value in a text of at most `size` characters. Its frames are kept in a list, so
that it may open any number of them. -/
def skipValue (size : Nat) : Reader Unit := skipFrames (size + 1) []

/-- The fault of a text at which something stands that is no object, array or string although one
of them is wanted: the fault of its own that the value has, or else that it does not fit. -/
def misfit (cs : List Char) : Fault :=
  let afterwards {α : Type} (r : Except Fault α) : Fault :=
    match r with
    | .error fault => fault
    | .ok _ => .unfit
  match cs with
  | [] => .truncated
  | c :: rest =>
    if c = '"' then afterwards (stringAfterQuote rest)
    else if startsNumeral c then afterwards (keptNumeral (c :: rest))
    else if c = '[' ∨ c = '{' then .unfit
    else afterwards (literal c (c :: rest))

/-- A string where a string is wanted. -/
def wantedString : Reader String := fun cs =>
  match skipSpace cs with
  | [] => .error .truncated
  | '"' :: rest => stringAfterQuote rest
  | cs => .error (misfit cs)

/-- A whole text, with white space at most after what the reader takes. -/
def wholeText {α : Type} (reader : Reader α) (s : String) : Except Fault α := do
  let (a, cs) ← reader s.toList
  if (skipSpace cs).isEmpty then pure a else throw .malformed

end TimeIds.Json
