import SgxActivation.CommandLine.Invocation
import SgxActivation.Filesystem.Store

/-!
# The program

Carries out an invocation on the machine at hand. There is no instruction here
that queries the processor, so every query is answered by zeros, which reads as
a processor without enclaves.

Paths are probed and records read and written as `Filesystem.Files` has it, by
the same system calls and with the same events, as far as a handle allows. It
does not tell how much of a record was taken: what a short write leaves over is
handed over again, and if that fails, so does the write. And it cannot bring its
file to the disk, which is left to the system.
-/

namespace SgxActivation.CommandLine

open Filesystem

/-! ## System calls -/

/-- The system's number for an error. Some calls come back with its negative. -/
def errorNumber (number : UInt32) : Nat :=
  (if number < 0x80000000 then number else -number).toNat

/-- The error of a failed system call. -/
def systemError : IO.Error → SystemError
  | .noFileOrDirectory _ number words | .interrupted _ number words
  | .alreadyExists _ number words | .inappropriateType _ number words
  | .invalidArgument _ number words | .noSuchThing _ number words
  | .permissionDenied _ number words | .resourceExhausted _ number words
  | .hardwareFault number words | .illegalOperation number words | .otherError number words
  | .protocolError number words | .resourceBusy number words | .resourceVanished number words
  | .timeExpired number words | .unsatisfiedConstraints number words
  | .unsupportedOperation number words => .ofNumber (errorNumber number) words
  | .unexpectedEof => .other 0 "unexpected end of file"
  | .userError words => .other 0 words

/-- Makes a system call. -/
def attempt {α : Type} (call : IO α) : IO (Except SystemError α) := do
  return (← call.toBaseIO).mapError systemError

/-- Makes a system call on a path, unless the path holds a NUL character. -/
def attemptOn {α : Type} (path : Path) (call : String → IO α) : IO (Except SystemError α) :=
  if path.text.toList.contains '\x00' then return .error .nulInPath
  else attempt (call path.text)

/-- Reads up to `length` bytes from the front of an open file. A handle refuses to
read no bytes. -/
def readFront (handle : IO.FS.Handle) (length : Nat) : IO Bytes := do
  if length = 0 then return []
  return (← handle.read length.toUSize).toList

/-- Hands bytes over to an open file. They wait in the handle's buffer until the
flush hands them over in one call. -/
def handOver (handle : IO.FS.Handle) (bytes : Bytes) : IO Unit := do
  handle.write bytes.toByteArray
  handle.flush

/-! ## Calls of a program -/

/-- Probes a path. -/
def probePath (path : Path) : IO Presence := do
  let found ← attemptOn path fun text => (System.mkFilePath [text]).metadata
  return Files.presence (found.map fun _ => [])

/-- The answer for a path that could not be opened, and the event of it. -/
def openFailed {α : Type} (path : Path) (error : SystemError) : Except Failure α × List Event :=
  (.error (Files.openFailure path error), [.openFailed path error])

/-- Reads a record. -/
def readPath (path : Path) (length : Nat) : IO (Except Failure Bytes × List Event) := do
  match ← attemptOn path (IO.FS.Handle.mk · .read) with
  | .error error => return openFailed path error
  | .ok handle =>
    match ← attempt (readFront handle length) with
    | .error error => return (.error (Files.failureAt .unexpected path error), [])
    | .ok bytes =>
      if bytes.length = length then return (.ok bytes, [])
      else
        let words := s!"{path.text}: record is shorter than {length} bytes"
        return (.error ⟨.unexpected, words⟩, [])

/-- Removes what a broken write left behind. -/
def discardPath (path : Path) : IO (List Event) := do
  match ← attemptOn path (IO.FS.removeFile ·) with
  | .ok () => return []
  | .error error => return [.remnantLeft path error]

/-- Writes a record. -/
def writePath (path : Path) (bytes : Bytes) : IO (Except Failure Unit × List Event) := do
  match ← attemptOn path (IO.FS.Handle.mk · .write) with
  | .error error => return openFailed path error
  | .ok handle =>
    match ← attempt (handOver handle bytes) with
    | .error error =>
      return (.error (Files.failureAt .unexpected path error), ← discardPath path)
    | .ok () => return (.ok (), [.recordWritten path bytes.length])

/-- Answers a call, with the events of it. -/
def answerCall : (call : Call) → IO (call.Answer × List Event)
  | .query .. => return (({} : Registers), [])
  | .probe path => return (← probePath path, [])
  | .read path length => readPath path length
  | .write path bytes => writePath path bytes

/-! ## Programs -/

/-- Writes an event to the errors, unless it is less than a warning and such are
not wanted. -/
def logEvent (verbose : Bool) (event : Event) : IO Unit :=
  if verbose || event.level = .warn then
    IO.eprintln (event.level.name ++ " " ++ event.text)
  else pure ()

/-- Carries out a program. -/
def carryOut {α : Type} (verbose : Bool) : Program α → IO α
  | .done result => pure result
  | .ask call next => do
    let (answer, events) ← answerCall call
    events.forM (logEvent verbose)
    carryOut verbose (next answer)
  | .note event next => do
    logEvent verbose event
    carryOut verbose next

/-- Reads a file that may be missing. -/
def readConfigFile (path : Path) : IO (Except SystemError Bytes) := do
  return (← attemptOn path (IO.FS.readBinFile ·)).map (·.toList)

end SgxActivation.CommandLine

open SgxActivation SgxActivation.CommandLine in
/-- Runs the program on its arguments. -/
def main (arguments : List String) : IO UInt32 := do
  let options := (Options.parse arguments).toOption.getD {}
  let content ← match options.configPath with
    | some path => readConfigFile path
    | none => pure (.ok [])
  let printed ← carryOut options.verbose (invoke (fun _ => content) arguments)
  IO.print printed.output
  IO.eprint printed.errors
  return printed.exitCode.toUInt32
