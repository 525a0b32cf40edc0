import TimeIds.Calendar
import TimeIds.Command.Source
import TimeIds.Json.Printer

/-!
The commands, and the choice between them.

A command prints its results line by line. One that fails says why and leaves the exit code 1; a
call without arguments shows the help and leaves 2.
-/
namespace TimeIds.Command

open Json (Scalar objectLine)

variable {m : Type → Type} [Monad m] [Host m]

/-- Prints a line. -/
def say (line : String) : Action m Unit := (Host.printLine line : m Unit)

/-! ### Alphanumeric identifiers -/

/-- One identifier. -/
def next (arguments : List String) : Action m Unit := do
  let o ← Action.options false arguments
  let g ← alphanumeric o
  let (id, g) ← nextId g
  if o.json then
    say (objectLine [("id", .text id), ("offset", .integer g.offset.toInt),
      ("postfix", .integer o.suffixDigits)])
  else say id

/-- Prints that many identifiers. -/
@[specialize] def printIds : Nat → Alphanumeric.Generator → Action m Unit
  | 0, _ => pure ()
  | count + 1, g => do
    let (id, g) ← nextId g
    say id
    printIds count g

/-- More identifiers than anyone waits for. -/
def endless : Nat := 2 ^ 64

/-- Identifiers one after the other: as many as wanted, or without end. -/
def stream (arguments : List String) : Action m Unit := do
  let o ← Action.options true arguments
  let g ← alphanumeric o
  printIds (if o.count = 0 then endless else o.count) g

/-- The text of a time, or a word for one that no calendar has. -/
def timeText (millis : Millis) : String :=
  match Instant.ofMillis? millis.toInt with
  | some i => i.rfc3339
  | none => "out of range"

/-- The time of an identifier. -/
def time : List String → Action m Unit
  | [] => throw (.missingId "time")
  | id :: arguments => do
    let o ← Action.options false arguments
    match o.offset with
    | none => throw .missingOffset
    | some offset =>
      let parsed ← Action.ofOutcome (Alphanumeric.parse id o.suffixDigits)
      let millis := parsed.millis offset
      if o.json then
        say (objectLine [("elapsed", .integer parsed.elapsed.toNat),
          ("millis", .integer millis.toInt), ("postfix", .integer parsed.serial.toNat),
          ("raw", .text parsed.raw), ("timestamp", .text (timeText millis))])
      else say (toString millis.toInt ++ " " ++ timeText millis)

/-- Whether a text is an identifier. -/
def validate : List String → Action m Unit
  | [] => throw (.missingId "validate")
  | id :: arguments => do
    let o ← Action.options false arguments
    let valid := Alphanumeric.isValid id o.suffixDigits
    say (if valid then "true" else "false")
    if valid then pure () else throw .invalidId

/-- Whether a new identifier is one. -/
def healthcheck (arguments : List String) : Action m Unit := do
  let o ← Action.options false arguments
  let g ← alphanumeric o
  let (sample, g) ← nextId g
  let ok := Alphanumeric.isValid sample o.suffixDigits && sample.utf8ByteSize == g.idLength
  if o.json then
    say (objectLine [("length", .integer g.idLength), ("ok", .bool ok),
      ("postfix", .integer o.suffixDigits), ("sample_id", .text sample)])
  else
    say ("ok=" ++ (if ok then "true" else "false") ++ " postfix=" ++ toString o.suffixDigits ++
      " sample=" ++ sample)
  if ok then pure () else throw .unhealthy

/-! ### UUIDs and nodes -/

/-- A UUID with its parts. -/
def uuidLine (uuid : Uuid) (node : NodeId) : String :=
  objectLine [
    ("clock_sequence", match uuid.clockSequence? with
      | some s => .integer s.toNat
      | none => .null),
    ("node", .text node.text),
    ("timestamp", match uuid.time?.bind Instant.ofTicks? with
      | some i => .text i.rfc3339
      | none => .null),
    ("uuid", .text uuid.text)]

/-- Prints that many UUIDs. -/
@[specialize] def printUuids (json : Bool) : Nat → UuidSource → Action m UuidSource
  | 0, s => pure s
  | count + 1, s => do
    let (uuid, s) ← nextUuidOrDrop s
    say (if json then uuidLine uuid s.generator.nodeId else uuid.text)
    printUuids json count s

/-- UUIDs on the nodes that the environment names. -/
def uuid (arguments : List String) : Action m Unit := do
  let o ← Action.options true arguments
  let path ← (Host.environment StoreConfig.pathVariable : m _)
  let mode ← (Host.environment StoreConfig.modeVariable : m _)
  let interval ← (Host.environment StoreConfig.intervalVariable : m _)
  let config := StoreConfig.ofEnvironment fun name =>
    if name = StoreConfig.pathVariable then path
    else if name = StoreConfig.modeVariable then mode
    else if name = StoreConfig.intervalVariable then interval
    else none
  let s ← uuids config.store
  let s ← printUuids o.json (if o.count = 0 then 1 else o.count) s
  closeUuids s

/-- A node identifier drawn for this host. -/
def randomNode : Action m Unit := do
  let seed ← (Host.random : m UInt64)
  say (Node.derived (Draws.ofSeed seed)).id.text

/-- A node identifier: a new one, or a given one in its normal form. -/
def node : List String → Action m Unit
  | [] => randomNode
  | "random" :: _ => randomNode
  | ["check"] => throw .missingAddress
  | "check" :: address :: _ => do
    let id ← Action.ofOutcome (NodeId.parse address)
    say (id.text ++ " multicast=" ++ (if id.isMulticast then "true" else "false"))
  | other :: _ => throw (.unknownNodeCommand other)

/-! ### Trials -/

/-- Takes that many identifiers and throws them away. -/
@[specialize] def burnIds : Nat → Alphanumeric.Generator → Action m Unit
  | 0, _ => pure ()
  | count + 1, g => do
    let (_, g) ← nextId g
    burnIds count g

/-- Takes that many UUIDs and throws them away. -/
@[specialize] def burnUuids : Nat → UuidSource → Action m Unit
  | 0, _ => pure ()
  | count + 1, s => do
    let (_, s) ← nextUuid s
    burnUuids count s

/-- Takes every `--kind` and its value out of arguments; the last value holds. -/
def splitKind (kind : String) : List String → Except OptionFault (String × List String)
  | [] => .ok (kind, [])
  | argument :: rest =>
    if argument = "--kind" then
      match rest with
      | [] => .error (.missingValue "--kind")
      | value :: rest => splitKind value rest
    else (splitKind kind rest).map fun (kind, others) => (kind, argument :: others)

/-- How many identifiers a trial takes where nothing is said. -/
def trialCount : Nat := 100000

/-- Measures how fast identifiers come. -/
def bench (arguments : List String) : Action m Unit := do
  let (kind, others) ← ExceptT.mk (pure ((splitKind "alnum" arguments).mapError Fault.options))
  let o ← Action.options true others
  let count := if o.count = 0 then trialCount else o.count
  let start ← (Host.stopwatch : m Nat)
  if kind = "alnum" then
    let g ← alphanumeric o
    burnIds count g
  else if kind = "uuid" then
    let s ← uuids (.memory [])
    burnUuids count s
  else throw .unknownKind
  let stop ← (Host.stopwatch : m Nat)
  let nanos := max (stop - start) 1
  say (objectLine [("ids_per_sec", .fixed (count * 1000000000000 / nanos) 3),
    ("kind", .text kind), ("n", .integer count), ("postfix", .integer o.suffixDigits),
    ("seconds", .fixed nanos 9)])

/-- Takes two identifiers of either kind and compares them. -/
def selftest : Action m Unit := do
  let g ← alphanumeric {}
  let (a, g) ← nextId g
  let (b, _) ← nextId g
  if b ≤ a then throw .notIncreasing
  let s ← uuids (.memory [])
  let (x, s) ← nextUuid s
  let (y, _) ← nextUuid s
  if x = y then throw .repeatedUuid

/-! ### The choice -/

/-- The lines of the help. -/
def helpLines : List String := [
  "idgen - identifier generator CLI",
  "",
  "Usage:",
  "  idgen next [--postfix <n>] [--offset <ms>]",
  "  idgen stream [--postfix <n>] [--offset <ms>] [--count <n>]",
  "  idgen time <id> --offset <ms> [--postfix <n>] [--json]",
  "  idgen validate <id> [--postfix <n>]",
  "  idgen uuid [--count <n>] [--json]",
  "  idgen node [random | check <XX-XX-XX-XX-XX-XX>]",
  "  idgen healthcheck [--json]",
  "  idgen bench [--kind alnum|uuid] [--count <n>]",
  "  idgen selftest",
  "",
  "Environment:",
  "  IDGEN_STATE_FILE      node registry document used by \x60uuid\x60",
  "  IDGEN_STATE_MODE      read-only (default) | file",
  "  IDGEN_SYNCH_INTERVAL  registry flush interval in ms",
  "  RUST_LOG              log filter (default: warn)",
  ""]

/-- The help. -/
def help : String := String.intercalate "\n" helpLines

/-- The command of a name, with its arguments. -/
def command (name : String) (arguments : List String) : Action m Unit :=
  match name with
  | "next" => next arguments
  | "stream" => stream arguments
  | "time" => time arguments
  | "validate" => validate arguments
  | "uuid" => uuid arguments
  | "node" => node arguments
  | "healthcheck" => healthcheck arguments
  | "bench" => bench arguments
  | "selftest" => selftest
  | other => throw (.unknownCommand other)

/-- How a call ends. -/
structure Exit where
  code : Nat
  /-- What is said to the user besides the results. -/
  notice : String

/-- A whole call. -/
def run : List String → m Exit
  | [] => pure ⟨2, help ++ "\n"⟩
  | name :: arguments =>
    if name = "-h" ∨ name = "--help" ∨ name = "help" then pure ⟨0, help ++ "\n"⟩
    else do
      match ← (command name arguments).run with
      | .ok () => pure ⟨0, ""⟩
      | .error fault => pure ⟨1, "error: " ++ fault.message ++ "\n"⟩

end TimeIds.Command
