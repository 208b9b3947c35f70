import SgxActivation.CommandLine.Usage
import SgxActivation.Config.Document
import SgxActivation.Report

/-!
# Invocations

A whole run of the program. Before the machine is asked anything, three gates
have to be passed: the arguments must ask for a run, the configuration file, if
one is named, must be readable as a configuration, and the configuration must be
accepted. Then the report is made and printed, as JSON or as its message, and
its exit code is the program's.
-/

namespace SgxActivation.CommandLine

/-- Why there is no configuration to run under. -/
inductive Refusal where
  | unreadable (path : Path) (error : SystemError)
  | notText (path : Path)
  | unfit (path : Path) (failure : Failure)
  | notAccepted (failure : Failure)
  deriving DecidableEq, Repr

/-- A refusal in words. -/
def Refusal.words : Refusal → String
  | .unreadable path error => s!"Failed to read configuration {path.text}: {error.text}"
  | .notText path =>
    s!"Failed to read configuration {path.text}: stream did not contain valid UTF-8"
  | .unfit path failure => s!"Failed to load configuration {path.text}: {failure.message}"
  | .notAccepted failure => failure.message

/-- What a refusal prints. -/
def Refusal.printed (refusal : Refusal) : Printed :=
  { exitCode := 1, errors := programName ++ ": " ++ refusal.words ++ "\n" }

/-- The configuration in a file with this content. -/
def configIn (path : Path) (bytes : Bytes) : Except Refusal Config :=
  match String.fromUTF8? bytes.toByteArray with
  | none => .error (.notText path)
  | some document => (Config.ofDocument document).mapError (.unfit path)

/-- The configuration that the options name, or the default one. -/
def loadConfig (load : Path → Except SystemError Bytes) (options : Options) :
    Except Refusal Config :=
  match options.configPath with
  | none => .ok {}
  | some path =>
    match load path with
    | .error error => .error (.unreadable path error)
    | .ok bytes => configIn path bytes

/-- The accepted settings that the options lead to. -/
def loadSettings (load : Path → Except SystemError Bytes) (options : Options) :
    Except Refusal Settings := do
  let config ← loadConfig load options
  (Settings.ofConfig config).mapError .notAccepted

/-- How a report is printed. The message of a failed run goes to the errors. -/
def printReport (json : Bool) (report : Report) : Printed :=
  if json then { exitCode := report.exitCode, output := report.toText ++ "\n" }
  else if report.errorCode?.isSome then
    { exitCode := report.exitCode, errors := report.message ++ "\n" }
  else { exitCode := report.exitCode, output := report.message ++ "\n" }

/-- The program that a list of arguments stands for, where `load` reads the
configuration file. -/
def invoke (load : Path → Except SystemError Bytes) (arguments : List String) :
    Program Printed :=
  match Options.parse arguments with
  | .error stop => return stop.printed
  | .ok options =>
    match loadSettings load options with
    | .error refusal => return refusal.printed
    | .ok settings => printReport options.json <$> settings.evaluate options.statusOnly

end SgxActivation.CommandLine
