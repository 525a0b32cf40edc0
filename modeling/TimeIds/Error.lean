import TimeIds.Base36.Basic
import TimeIds.Disk.Fault
import TimeIds.Disk.Path
import TimeIds.Json.Fault
import TimeIds.Node.Id
import TimeIds.Text.Quoted

/-!
Every way in which issuing an identifier or keeping node records can fail, as causes, and the one
place that puts them into words.
-/
namespace TimeIds

/-- What is wrong with an argument. -/
inductive ArgumentFault
  /-- A base-36 numeral without digits. -/
  | emptyNumeral
  /-- A character that is no base-36 digit. -/
  | badDigit (c : Char)
  /-- A base-36 numeral whose value does not fit. -/
  | numeralTooLarge (numeral : String)
  /-- A suffix wider than a time segment. -/
  | suffixTooWide (digits : Nat)
  /-- A text that is no identifier of the wanted shape. -/
  | malformedId (id : String)
  /-- A text that holds no time segment. -/
  | shortId (id : String)
  /-- A node that appears twice among the nodes to be stored. -/
  | duplicateNode (id : NodeId)
deriving DecidableEq, Repr

/-- What is wrong with the configuration of a node registry. -/
inductive ConfigurationFault
  | noResource
  | unreadable (path : Path) (fault : FileFault)
deriving DecidableEq, Repr

/-- Why an operation failed. -/
inductive IdError
  | configuration (fault : ConfigurationFault)
  /-- The clock has no fresh tick left. -/
  | overClocked
  /-- Every suffix of the current time segment is used. -/
  | capacityExhausted (suffixDigits : Nat)
  | invalidArgument (fault : ArgumentFault)
  | invalidNode (text : String)
  | file (fault : FileFault)
  | json (fault : Json.Fault)
deriving DecidableEq, Repr

/-- The words for a faulty argument. -/
def ArgumentFault.message : ArgumentFault → String
  | emptyNumeral => "empty base-36 value"
  | badDigit c => "invalid base-36 digit " ++ Text.quoted c
  | numeralTooLarge numeral => "base-36 value out of range: " ++ numeral
  | suffixTooWide digits =>
    "postfix digits must be within 0..=" ++ toString Base36.timeDigits ++ ", got " ++
      toString digits
  | malformedId id => "malformed alphanumeric id: " ++ id
  | shortId id => "id too short: " ++ id
  | duplicateNode id => "duplicate node " ++ id.text ++ " in store request"

/-- The words for a faulty configuration. -/
def ConfigurationFault.message : ConfigurationFault → String
  | noResource => "no node registry resource configured"
  | unreadable path fault => "cannot read node registry " ++ path.text ++ ": " ++ fault.message

/-- The words for a failure. -/
def IdError.message : IdError → String
  | configuration fault => "Configuration error: " ++ fault.message
  | overClocked => "Clock over-clocked: too many timestamps requested within one tick"
  | capacityExhausted digits =>
    "Postfix space exhausted: no unique identifier left in this tick (" ++ toString digits ++
      " postfix digits)"
  | invalidArgument fault => "Invalid argument: " ++ fault.message
  | invalidNode text => "Invalid node identifier: " ++ text
  | file fault => "IO error: " ++ fault.message
  | json fault => "JSON error: " ++ fault.message

/-- An outcome with a value is that value. -/
theorem eq_ok_of_toOption {ε α : Type} {x : Except ε α} {a : α} (h : x.toOption = some a) :
    x = .ok a := by
  cases x with
  | error _ => cases h
  | ok b =>
    cases h
    rfl

end TimeIds
