import TaskRevision.CommandLine.Run
/-!
# The program

Gets what a run needs from the outside, prints what the run prints, and ends as it ends.
-/

namespace TaskRevision

open CommandLine

/-- Why the system could not read. -/
def faultOf : IO.Error → FileFault
  | .noFileOrDirectory .. => .notFound
  | .inappropriateType .. => .isDirectory
  | e => .other (toString e)

/-- The bytes of a stream up to its end. -/
partial def readStream (stream : IO.FS.Stream) (bytes : ByteArray) : IO ByteArray := do
  let more ← stream.read 65536
  if more.isEmpty then return bytes else readStream stream (bytes ++ more)

/-- The bytes of a source. -/
def fetch (source : Source) : IO (Except FileFault ByteArray) := do
  try
    match source with
    | .given _ => return .ok .empty
    | .file path => return .ok (← IO.FS.readBinFile path)
    | .input => return .ok (← readStream (← IO.getStdin) .empty)
  catch e => return .error (faultOf e)

/-- The environment variables that a run looks at. -/
def environment : IO (List (String × String)) :=
  ((Setting.allowed .update).filterMap Setting.fallback
      ++ ["RUST_LOG", "RUST_LIB_BACKTRACE", "RUST_BACKTRACE"]).filterMapM fun name => do
    return (← IO.getEnv name).map fun value => (name, value)

end TaskRevision

open TaskRevision CommandLine in
/-- Runs the program. -/
def main (arguments : List String) : IO UInt32 := do
  let surroundings : Surroundings := { environment := ← environment }
  let outcome ← match Command.ofArguments arguments surroundings.environment with
    | .error stop => pure stop.outcome
    | .ok command => do pure (command.outcome surroundings (← fetch command.source))
  (← IO.getStdout).putStr outcome.output
  (← IO.getStderr).putStr outcome.errors
  return outcome.code.toUInt32
