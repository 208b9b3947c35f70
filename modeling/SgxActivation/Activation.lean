import SgxActivation.Config
import SgxActivation.Support

/-!
# Classification and software enable

The programs that find out where a platform stands and ask its firmware to turn
enclaves on. Nothing is remembered between them: each examines the processor
and the store afresh.

* **`classify`** looks at the processor first; only a supported but inactive one
  makes it look for the firmware directory, and only when that is there do the
  variables count. Without it the system partition tells a disabled platform
  from a legacy boot, and there a refused probe only costs detail.
* **`enable`** classifies, and acts only when the firmware accepts a request: it
  reads the offer and records the request that takes it up.
* **`isCapable`** takes a published offer as proof, whatever the boot was.

Nothing here protects the time between the last probe and the write against
another process that does the same.
-/

namespace SgxActivation.Settings

/-- Examines the processor under the configured cap. -/
def examineProcessor (settings : Settings) : Program Support :=
  Support.examine settings.subleafCap

/-- Whether `path` exists. A refused and a failed probe are warned about and
end the attempt; `refusal` is what the failure then says. -/
def exists? (path : Path) (refusal : String) : Attempt Bool := do
  match ← Program.probe path with
  | .present => return true
  | .absent => return false
  | .denied =>
    Attempt.log (.probeDenied path)
    throw ⟨.noPrivilege, refusal⟩
  | .failed reason =>
    Attempt.log (.probeFailed path reason)
    throw ⟨.unexpected, s!"{path.text}: {reason}"⟩

/-- One probe and at most one event, whatever is found. -/
theorem run_exists? (path : Path) (refusal : String) :
    (exists? path refusal).run = .ask (.probe path) fun
      | .present => .done (.ok true)
      | .absent => .done (.ok false)
      | .denied => .note (.probeDenied path) (.done (.error ⟨.noPrivilege, refusal⟩))
      | .failed reason => .note (.probeFailed path reason)
          (.done (.error ⟨.unexpected, s!"{path.text}: {reason}"⟩)) := by
  simp only [exists?, Attempt.run_bind, Attempt.run_lift, Program.probe, Program.andThen]
  congr 1
  funext presence
  cases presence <;> rfl

/-- Whether the file or directory at `path` exists. -/
def holds? (path : Path) : Attempt Bool :=
  exists? path s!"Permission denied: {path.text}"

/-- Whether the boot left a firmware directory. -/
def firmwareBoot? (path : Path) : Attempt Bool :=
  exists? path s!"no privilege to examine boot environment: {path.text}"

/-- The status without a firmware directory. A system partition, or one that
cannot be seen, speaks for a disabled platform, and its absence for a legacy
boot. -/
def classifyLegacy (settings : Settings) : Program Status := do
  let bootEfi := settings.locations.bootEfi
  match ← Program.probe bootEfi with
  | .present => return .disabled
  | .absent => return .legacyBoot
  | .denied =>
    Program.log (.partitionDenied bootEfi)
    return .disabled
  | .failed reason =>
    Program.log (.partitionFailed bootEfi reason)
    return .disabled

/-- The status that the firmware variables tell. A missing variable directory
is only noted, since the variables are then missing too. -/
def classifyVariables (settings : Settings) : Attempt Status := do
  let locations := settings.locations
  if !(← holds? locations.efivarsDir) then
    Attempt.log (.variablesMissing locations.efiRoot locations.efivarsDir)
  if !(← holds? locations.offer) then
    Attempt.log .noControlInterface
    return .manualEnableRequired
  else if ← holds? locations.request then
    return .rebootRequired
  else
    return .interfaceAvailable

/-- Finds out where the platform stands. -/
def classify (settings : Settings) : Attempt Status := do
  let support ← settings.examineProcessor
  if !support.supported then
    return .unsupportedProcessor
  else if support.active then
    return .enabled
  else if ← firmwareBoot? settings.locations.efiRoot then
    settings.classifyVariables
  else
    settings.classifyLegacy

/-- Reads the offer and records the request that takes it up. -/
def takeUpOffer (settings : Settings) : Attempt Unit := do
  let bytes ← Attempt.read settings.locations.offer Record.Offer.size
  let offer ← Record.Offer.ofBytes bytes
  Attempt.log (.offerRead offer.attributes offer.maxEpcSize)
  Attempt.write settings.locations.request offer.request.toBytes
  Attempt.log .enableRequested

/-- Asks the firmware to turn enclaves on at the next boot, if the status says
that it accepts the request; any other status is the answer as it is. -/
def enable (settings : Settings) : Attempt Status := do
  let status ← settings.classify
  if status = .interfaceAvailable then
    settings.takeUpOffer
    return .rebootRequired
  else
    Attempt.log (.nothingToEnable status)
    return status

/-- Whether enclaves work now or could after a software enable. -/
def isCapable (settings : Settings) : Attempt Bool := do
  let support ← settings.examineProcessor
  if !support.supported then
    return false
  else if support.active then
    return true
  else
    holds? settings.locations.offer

end SgxActivation.Settings
