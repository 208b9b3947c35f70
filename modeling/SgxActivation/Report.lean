import SgxActivation.Activation
import SgxActivation.Json.Printer
import SgxActivation.Text.Hexadecimal

/-!
# Reports

A report says what one run came to: what the processor supports, and a
**conclusion**, which is a status, or that the enable was gone through with and
the request is in place, or a failure. Everything that is shown of a report, the status and its
code, the message, the error code and the exit code, follows from these two.

`Settings.evaluate` makes a report: it examines and classifies, and, unless only
the status is wanted, tries the software enable where the firmware offers it.
-/

namespace SgxActivation

namespace Failure

/-- The failure in a sentence that says what was being done; missing privilege
has a sentence of its own. -/
def explain (failure : Failure) (noPrivilege doing : String) : String :=
  if failure.isNoPrivilege then noPrivilege
  else doing ++ failure.message ++ " (0x" ++ Text.hexadecimalPadded 4 failure.code ++ ")"

/-- What is said when the status could not be found out. -/
def statusExplanation (failure : Failure) : String :=
  failure.explain "could not examine the EFI filesystem" "could not get SGX status: "

/-- What is said when the enable failed. -/
def enableExplanation (failure : Failure) : String :=
  failure.explain "You may need to rerun this utility as root"
    "I could not attempt the software enable: "

end Failure

/-- What a run came to. -/
inductive Conclusion where
  /-- The platform has this status. -/
  | settled (status : Status)
  /-- The enable was gone through with, and the request is in place. -/
  | requested
  /-- The run failed. -/
  | failed (kind : Failure.Kind) (message : String)
  deriving DecidableEq, Repr

/-- The outcome of one run. -/
structure Report where
  support : Support
  conclusion : Conclusion
  deriving DecidableEq, Repr

namespace Report

/-- The final status, unless the run failed. -/
def status? (report : Report) : Option Status :=
  match report.conclusion with
  | .settled status => some status
  | .requested => some .rebootRequired
  | .failed .. => none

/-- The code of the final status. -/
def statusCode? (report : Report) : Option Nat := report.status?.map Status.code

/-- Whether this run went through with the enable. -/
def enablePerformed (report : Report) : Bool :=
  match report.conclusion with
  | .requested => true
  | _ => false

/-- What the person who asked is told. -/
def message (report : Report) : String :=
  match report.conclusion with
  | .settled status => status.explanation
  | .requested =>
    "Software enable has been set. Please reboot your system to finish\n" ++
    "enabling Intel SGX."
  | .failed _ message => message

/-- The code of the failure, if the run failed. -/
def errorCode? (report : Report) : Option Nat :=
  match report.conclusion with
  | .failed kind _ => some kind.code
  | _ => none

/-- The process exit code. -/
def exitCode (report : Report) : Nat :=
  match report.status? with
  | some status => status.exitCode
  | none => 1

/-- The report as a JSON object of seven members. -/
def toJson (report : Report) : Json :=
  .object
    [("status", match report.status? with
      | some status => .text status.name
      | none => .null),
    ("status_code", .numberOrNull report.statusCode?),
    ("cpu", .object
      [("supported", .bool report.support.supported),
      ("active", .bool report.support.active)]),
    ("enable_performed", .bool report.enablePerformed),
    ("message", .text report.message),
    ("error_code", .numberOrNull report.errorCode?),
    ("exit_code", .number report.exitCode)]

/-- The report as text. -/
def toText (report : Report) : String := report.toJson.toPretty

end Report

namespace Settings

/-- The conclusion of an attempt, with `explanation` to word a failure. -/
def concludeFailure (explanation : Failure → String) (failure : Failure) : Conclusion :=
  .failed failure.kind (explanation failure)

/-- What asking for the enable comes to, once the firmware was found to accept
a request. The enable classifies again: it may find another status, and a request
that stands by then counts as requested, whoever recorded it. -/
def concludeEnable (settings : Settings) : Program Conclusion := do
  match ← settings.enable.run with
  | .ok .rebootRequired => return .requested
  | .ok other => return .settled other
  | .error failure => return concludeFailure Failure.enableExplanation failure

/-- Classifies, and goes on to the enable where that is wanted and possible. -/
def conclude (settings : Settings) (statusOnly : Bool) : Program Conclusion := do
  match ← settings.classify.run with
  | .error failure => return concludeFailure Failure.statusExplanation failure
  | .ok .interfaceAvailable =>
    if statusOnly then return .settled .interfaceAvailable else settings.concludeEnable
  | .ok status => return .settled status

/-- Makes the report of one run. -/
def evaluate (settings : Settings) (statusOnly : Bool) : Program Report := do
  let support ← settings.examineProcessor
  let conclusion ← settings.conclude statusOnly
  return ⟨support, conclusion⟩

end Settings

end SgxActivation
