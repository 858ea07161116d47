import SensorBar.Replay
import SensorBar.Settings.Load

/-!
# The command line

What a request asks for, and what answering it comes to, given the files that can be reached and
the bytes on standard input.
-/

namespace SensorBar.CommandLine

def versionText : String :=
  "irpointer-replay 0.1.0\n"

/-- The settings file that is read, if it is there, when none is named. -/
def defaultSettings : String :=
  "vset.toml"

/-! ## Requests -/

/-- A replay of a trace, or of standard input when none is named. -/
structure Request where
  settings : Option String
  trace : Option String
  deriving DecidableEq

inductive Command where
  | replay (request : Request)
  | version
  | usageError
  deriving DecidableEq

/-- Names the settings file, once. -/
def Request.withSettings? (r : Request) (path : String) : Option Request :=
  if r.settings.isSome || path.isEmpty then none else some { r with settings := some path }

/-- Names the trace, once. -/
def Request.withTrace? (r : Request) (path : String) : Option Request :=
  if r.trace.isSome || path.isEmpty then none else some { r with trace := some path }

/-- Arguments after `--`, all of which are names. -/
def parseNames (r : Request) : List String → Command
  | [] => .replay r
  | arg :: rest =>
      match r.withTrace? arg with
      | none => .usageError
      | some r => parseNames r rest

/-- Whether an argument begins with a hyphen and is not a hyphen alone. -/
def looksLikeOption (arg : String) : Bool :=
  arg.startsWith "-" && arg != "-"

/-- The value in an argument of the form `--settings=VALUE`. -/
def settingsValue? (arg : String) : Option String :=
  if arg.startsWith "--settings=" then some (String.ofList (arg.toList.drop 11)) else none

/-- Arguments in order; the first one that is wrong, or that asks for the version, decides. -/
def parseFrom (r : Request) : List String → Command
  | [] => .replay r
  | arg :: rest =>
      if arg == "--" then parseNames r rest
      else if arg == "--version" || arg.startsWith "-V" then .version
      else if arg == "--settings" then
        match rest with
        | [] => .usageError
        | path :: rest =>
            if looksLikeOption path then .usageError
            else
              match r.withSettings? path with
              | none => .usageError
              | some r => parseFrom r rest
      else
        match settingsValue? arg with
        | some path =>
            match r.withSettings? path with
            | none => .usageError
            | some r => parseFrom r rest
        | none =>
            if looksLikeOption arg then .usageError
            else
              match r.withTrace? arg with
              | none => .usageError
              | some r => parseFrom r rest

def parse (args : List String) : Command :=
  parseFrom ⟨none, none⟩ args

/-- The files that a request may read. -/
def Request.paths (r : Request) : List String :=
  r.settings.getD defaultSettings :: r.trace.toList

/-! ## Outcomes -/

structure Outcome where
  code : Nat
  stdout : ByteArray
  message : Option String
  cause : Option String
  /-- What a replay that reached the end of its trace tells about itself. -/
  finished : Option String

def Outcome.ofUsageError : Outcome :=
  ⟨2, .empty, none, none, none⟩

def Outcome.ofVersion : Outcome :=
  ⟨0, versionText.toUTF8, none, none, none⟩

def Outcome.ofFailure (stdout : ByteArray) (message : String) (cause : Option String) : Outcome :=
  ⟨1, stdout, some message, cause, none⟩

/-- A breach has a code of its own and no message. -/
def Outcome.ofBreach (stdout : ByteArray) : Outcome :=
  ⟨101, stdout, none, none, none⟩

/-- The settings of a request, or the file they should have come from and what is wrong. -/
def Request.load (r : Request) (files : FileStore) : Except (String × Error) (Settings Float) :=
  match r.settings with
  | some path => (Settings.load files path).mapError (path, ·)
  | none =>
      if (files defaultSettings).isSome then
        (Settings.load files defaultSettings).mapError (defaultSettings, ·)
      else .ok .default

/-- The samples of a request's trace.  A directory can be opened and not read. -/
def Request.samples (r : Request) (files : FileStore) (stdin : List UInt8) :
    Except (String × IoError) (List (Except Error (Sample Float))) :=
  match r.trace with
  | none => .ok (Replay.samples stdin)
  | some path =>
      match files path with
      | none => .error (path, .notFound)
      | some (.broken cause) => .error (path, cause)
      | some .directory => .ok [.error (.io .isDirectory)]
      | some (.file bytes) => .ok (Replay.samples bytes)

/-- The cause that is told apart from the message of an error. -/
def causeOf : Error → Option String
  | .io cause => some cause.message
  | _ => none

def summary (report : Report) (health : Health) : String :=
  "frames=" ++ toString report.frames ++ " valid=" ++ toString report.valid ++ " health=" ++
    health.name

def Outcome.ofRun (run : Replay.Run Float) : Outcome :=
  let report := run.report
  let stdout := report.sink.written
  match run.ending with
  | .finished => ⟨0, stdout, none, none, some (summary report run.last.tracker.health)⟩
  | .failed (.breach _) => .ofBreach stdout
  | .failed cause => .ofFailure stdout cause.message (causeOf cause)

/-- Settings come first: when they cannot be used, the trace is not opened. -/
def Request.answer (r : Request) (files : FileStore) (stdin : List UInt8) : Outcome :=
  match r.load files with
  | .error (_, .breach _) => .ofBreach .empty
  | .error (path, cause) => .ofFailure .empty ("loading " ++ path) (some cause.message)
  | .ok settings =>
      match r.samples files stdin with
      | .error (path, cause) =>
          .ofFailure .empty ("failed to open trace " ++ path) (some cause.message)
      | .ok samples => .ofRun ((Replay.start settings).run samples)

def answer (args : List String) (files : FileStore) (stdin : List UInt8) : Outcome :=
  match parse args with
  | .usageError => .ofUsageError
  | .version => .ofVersion
  | .replay r => r.answer files stdin

end SensorBar.CommandLine
