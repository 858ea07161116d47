import SensorBar.CommandLine

/-!
# The program

Reads the files that a request names, lets the library answer it, and writes the outcome.
-/

namespace SensorBar.Program

def causeOfFailure : IO.Error → IoError
  | .noFileOrDirectory .. => .notFound
  | .inappropriateType .. => .isDirectory
  | e => .other (toString e)

/-- What a name stands for in the working directory. -/
def readEntry (path : String) : IO (Option FileEntry) := do
  try
    let bytes ← IO.FS.readBinFile path
    return some (.file bytes.toList)
  catch e =>
    match causeOfFailure e with
    | .notFound => return none
    | .isDirectory => return some .directory
    | cause => return some (.broken cause)

/-- The named files, read once. -/
def readFiles (paths : List String) : IO FileStore := do
  let entries ← paths.mapM fun path => do return (path, ← readEntry path)
  return fun path => (entries.lookup path).join

/-- Standard input to its end. -/
partial def readRest (input : IO.FS.Stream) (bytes : ByteArray) : IO ByteArray := do
  let chunk ← input.read 65536
  if chunk.isEmpty then return bytes else readRest input (bytes ++ chunk)

def readStdin (r : CommandLine.Request) : IO (List UInt8) := do
  if r.trace.isSome then return []
  return (← readRest (← IO.getStdin) .empty).toList

def write (o : CommandLine.Outcome) : IO Unit := do
  let stdout ← IO.getStdout
  stdout.write o.stdout
  stdout.flush
  if let some message := o.message then
    IO.eprintln ("Error: " ++ message)
  if let some cause := o.cause then
    IO.eprintln ("\nCaused by:\n    " ++ cause)
  if let some fields := o.finished then
    IO.eprintln ("replay finished " ++ fields)

end SensorBar.Program

open SensorBar

def main (args : List String) : IO UInt32 := do
  let (files, stdin) ← match CommandLine.parse args with
    | .replay r => pure ((← Program.readFiles r.paths), (← Program.readStdin r))
    | _ => pure ((fun _ => none), [])
  let outcome := CommandLine.answer args files stdin
  Program.write outcome
  return outcome.code.toUInt32
