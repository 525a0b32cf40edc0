import TimeIds.Command.Options
import TimeIds.Error

/-!
Why a command fails, and the words it says then.
-/
namespace TimeIds.Command

/-- Why a command failed. -/
inductive Fault
  | options (fault : OptionFault)
  | identifier (e : IdError)
  /-- A command that needs an identifier got none. -/
  | missingId (command : String)
  | missingOffset
  | invalidId
  | missingAddress
  | unknownNodeCommand (name : String)
  | unhealthy
  | unknownKind
  /-- Two identifiers that are not in ascending order. -/
  | notIncreasing
  /-- Two UUIDs that are the same. -/
  | repeatedUuid
  | unknownCommand (name : String)
deriving DecidableEq, Repr

/-- The words for a failed command. -/
def Fault.message : Fault → String
  | options fault => fault.message
  | identifier e => e.message
  | missingId command => command ++ " requires an id"
  | missingOffset => "time requires --offset"
  | invalidId => "invalid id"
  | missingAddress => "node check requires an address"
  | unknownNodeCommand name => "unknown node subcommand: " ++ name
  | unhealthy => "healthcheck failed"
  | unknownKind => "--kind must be one of: alnum, uuid"
  | notIncreasing => "selftest failed: non-monotonic"
  | repeatedUuid => "selftest failed: duplicate uuid"
  | unknownCommand name => "unknown command: " ++ name

/-- A command in the middle of its work: it prints as it goes and may fail. -/
abbrev Action (m : Type → Type) (α : Type) := ExceptT Fault m α

namespace Action

variable {m : Type → Type} [Monad m] {α : Type}

/-- An outcome of the generators. -/
def ofOutcome (r : Except IdError α) : Action m α :=
  ExceptT.mk (pure (r.mapError .identifier))

/-- The options that arguments make. -/
def options (allowCount : Bool) (arguments : List String) : Action m Options :=
  ExceptT.mk (pure ((Options.ofArguments allowCount arguments).mapError .options))

end Action
end TimeIds.Command
