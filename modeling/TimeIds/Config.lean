import TimeIds.Store
import TimeIds.Text.Numeral

/-!
The choice of a store by environment variables.

`IDGEN_STATE_FILE` names the document, `IDGEN_STATE_MODE` says whether it may be written, and
`IDGEN_SYNCH_INTERVAL` sets the flush interval. A value that cannot be used counts as not given.
-/
namespace TimeIds

/-- Whether a document is only read or also written. -/
inductive StoreMode
  | readOnly
  | file
deriving DecidableEq, Repr

namespace StoreMode

/-- The name of a mode. -/
def name : StoreMode → String
  | readOnly => "read-only"
  | file => "file"

/-- The mode of a name; the first mode has two. -/
def ofName? (s : String) : Option StoreMode :=
  if s = "read-only" ∨ s = "readonly" then some readOnly
  else if s = "file" then some file
  else none

theorem ofName?_name (mode : StoreMode) : ofName? mode.name = some mode := by
  cases mode <;> decide

end StoreMode

/-- Which store to open. -/
structure StoreConfig where
  resource : Option Path := none
  mode : StoreMode := .readOnly
  interval : Option UInt64 := none
deriving DecidableEq

namespace StoreConfig

/-- The variable with the path of the document. -/
def pathVariable : String := "IDGEN_STATE_FILE"

/-- The variable with the flush interval in milliseconds. -/
def intervalVariable : String := "IDGEN_SYNCH_INTERVAL"

/-- The variable with the mode. -/
def modeVariable : String := "IDGEN_STATE_MODE"

/-- The configuration that an environment makes. A path of blanks is none; any other is taken as it
stands. -/
def ofEnvironment (value? : String → Option String) : StoreConfig where
  resource :=
    ((value? pathVariable).filter fun v => !(Text.trim v).isEmpty).map Path.mk
  mode := ((value? modeVariable).bind fun v => StoreMode.ofName? (Text.trim v)).getD .readOnly
  interval := (value? intervalVariable).bind fun v => Text.word? (Text.trim v)

/-- The store of a configuration, before it is loaded. -/
def store (c : StoreConfig) : Store :=
  match c.resource, c.mode with
  | none, _ => .memory []
  | some path, .readOnly => .resource (some path) []
  | some path, .file => .file { path, override := c.interval }

end StoreConfig
end TimeIds
