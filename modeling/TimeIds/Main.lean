import Std.Time.DateTime.Timestamp
import TimeIds.Command.Run

/-!
The command line: the commands of `TimeIds.Command` on the machine they run on.
-/
namespace TimeIds

/-- The refusal of a file operation by the system. -/
def FileFault.ofError : IO.Error → FileFault
  | .noFileOrDirectory _ _ _ => .notFound
  | .inappropriateType _ 21 _ => .isDirectory
  | .inappropriateType _ 20 _ => .notDirectory
  | .resourceBusy 16 _ => .busy
  | .invalidArgument _ 36 _ => .nameTooLong
  | .permissionDenied _ code details => .other (details ++ " (os error " ++ toString code ++ ")")
  | .resourceExhausted _ code details => .other (details ++ " (os error " ++ toString code ++ ")")
  | .otherError code details => .other (details ++ " (os error " ++ toString code ++ ")")
  | e => .other (toString e)

/-- The outcome of an operation of the system. -/
def FileFault.attempt {α : Type} (operation : IO α) : IO (Except FileFault α) := do
  match ← operation.toBaseIO with
  | .ok a => pure (.ok a)
  | .error e => pure (.error (FileFault.ofError e))

/-- The word that eight bytes write. -/
def wordOfBytes (bytes : ByteArray) : UInt64 :=
  bytes.toList.foldl (fun w b => (w <<< 8) ||| b.toUInt64) 0

instance : Disk IO where
  isPresent path := do
    pure (← (IO.FS.realPath path.text).toBaseIO).toBool
  readText path := do
    match ← FileFault.attempt (IO.FS.readBinFile path.text) with
    | .error fault => pure (.error fault)
    | .ok bytes =>
      match String.fromUTF8? bytes with
      | some text => pure (.ok text)
      | none => pure (.error .notText)
  writeText path text := FileFault.attempt (IO.FS.writeFile path.text text)
  rename source target := FileFault.attempt (IO.FS.rename source.text target.text)

instance : Command.Host IO where
  now := do
    let wall ← Std.Time.Timestamp.now
    pure (Int64.ofInt wall.toMillisecondsSinceUnixEpoch.toInt)
  stopwatch := IO.monoNanosNow
  random := do
    let bytes ← IO.getRandomBytes 8
    pure (wordOfBytes bytes)
  environment := fun name => IO.getEnv name
  printLine line := do
    IO.println line
    (← IO.getStdout).flush

end TimeIds

/-- Runs the command that the arguments name. -/
def main (arguments : List String) : IO UInt32 := do
  let exit ← TimeIds.Command.run arguments
  IO.eprint exit.notice
  pure (UInt32.ofNat exit.code)
