import TimeIds.Alphanumeric.Generator
import TimeIds.Text.Numeral

/-!
The options of the commands.

Options are read from the left. `--json` stands alone; every other flag takes the argument after it,
whatever that looks like. Of two settings of one option the later one holds, and the first flag that
cannot be read ends the reading.
-/
namespace TimeIds.Command

/-- What the options say. -/
structure Options where
  suffixDigits : Nat := Alphanumeric.defaultSuffixDigits
  offset : Option Millis := none
  /-- How many identifiers are wanted; 0 where nothing is said. -/
  count : Nat := 0
  json : Bool := false
deriving DecidableEq

/-- An option that takes a value. -/
inductive Flag
  | suffix
  | offset
  | count
deriving DecidableEq, Repr

/-- The name of an option in messages. -/
def Flag.name : Flag → String
  | suffix => "--postfix"
  | offset => "--offset"
  | count => "--count"

/-- Why options cannot be read. -/
inductive OptionFault
  | missingValue (flag : String)
  | badInteger (flag : Flag)
  | unknownFlag (argument : String)
deriving DecidableEq, Repr

/-- The words for options that cannot be read. -/
def OptionFault.message : OptionFault → String
  | missingValue flag => "missing value for " ++ flag
  | badInteger flag => "invalid integer for " ++ flag.name
  | unknownFlag argument => "unknown flag: " ++ argument

/-- The option that takes a value and has that spelling. Only some commands have a count. -/
def Flag.ofText? (allowCount : Bool) (s : String) : Option Flag :=
  if s = "--postfix" ∨ s = "--P" then some .suffix
  else if s = "--offset" then some .offset
  else if s = "--count" ∧ allowCount = true then some .count
  else none

namespace Options

/-- The options with a flag set to a value, if the value is one for the flag. -/
def set? (o : Options) (flag : Flag) (value : String) : Option Options :=
  match flag with
  | .suffix => (Text.natural? (2 ^ 64) value).map fun n => { o with suffixDigits := n }
  | .offset => (Text.integer? value).map fun n => { o with offset := some n }
  | .count => (Text.natural? (2 ^ 64) value).map fun n => { o with count := n }

/-- Reads arguments onto the options before them. -/
def read (allowCount : Bool) (o : Options) : List String → Except OptionFault Options
  | [] => .ok o
  | argument :: rest =>
    match Flag.ofText? allowCount argument with
    | some flag =>
      match rest with
      | [] => .error (.missingValue flag.name)
      | value :: rest =>
        match o.set? flag value with
        | none => .error (.badInteger flag)
        | some o => read allowCount o rest
    | none =>
      if argument = "--json" then read allowCount { o with json := true } rest
      else .error (.unknownFlag argument)

/-- The options that arguments make. -/
def ofArguments (allowCount : Bool) (arguments : List String) : Except OptionFault Options :=
  read allowCount {} arguments

end Options
end TimeIds.Command
