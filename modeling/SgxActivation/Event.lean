import SgxActivation.Path
import SgxActivation.Status
import SgxActivation.SystemError
import SgxActivation.Text.Hexadecimal

/-!
# Log events

Everything worth a line in the log is an **event** named for its cause. The
**level** and the **text** of the line follow from the event. A warning marks a
probe that was refused or failed, an enumeration that was cut off, a file that
could not be opened, or a remnant that could not be removed; the one
informative event says that the enable request was recorded.
-/

namespace SgxActivation

/-- How much a log line matters. -/
inductive Level where
  | debug
  | info
  | warn
  deriving DecidableEq, Repr

/-- The word for a level. -/
def Level.name : Level → String
  | .debug => "DEBUG"
  | .info => "INFO"
  | .warn => "WARN"

/-- Something that happened and is logged. -/
inductive Event where
  /-- The processor lacks the vendor or the feature bit. -/
  | unsupportedProcessor
  /-- The processor offers no enclave instructions. -/
  | noInstructions
  /-- The processor allows no enclave of any size. -/
  | noEnclaveSize
  /-- The enumeration of protected memory ended at an invalid sub-leaf. -/
  | memoryEnded (subleaf : UInt32)
  /-- A section with memory was found. -/
  | memoryFound (subleaf : UInt32)
  /-- The enumeration was cut off at its cap. -/
  | enumerationCapped (cap : UInt32)
  /-- A probe was refused. -/
  | probeDenied (path : Path)
  /-- A probe failed in some other way. -/
  | probeFailed (path : Path) (reason : String)
  /-- The probe of the system partition was refused, which only loses detail. -/
  | partitionDenied (path : Path)
  /-- The probe of the system partition failed, which only loses detail. -/
  | partitionFailed (path : Path) (reason : String)
  /-- Firmware directory without a variable directory. -/
  | variablesMissing (efiRoot efivarsDir : Path)
  /-- Firmware publishes no offer. -/
  | noControlInterface
  /-- The status leaves nothing to ask for. -/
  | nothingToEnable (status : Status)
  /-- An offer was read. -/
  | offerRead (attributes maxEpcSize : UInt32)
  /-- The request was recorded. -/
  | enableRequested
  /-- A file could not be opened. -/
  | openFailed (path : Path) (error : SystemError)
  /-- A partly written file could not be removed. -/
  | remnantLeft (path : Path) (error : SystemError)
  /-- A whole record was written. -/
  | recordWritten (path : Path) (count : Nat)
  deriving DecidableEq, Repr

namespace Event

/-- The level of an event. -/
def level : Event → Level
  | .enumerationCapped _ | .probeDenied _ | .probeFailed .. | .partitionDenied _
  | .partitionFailed .. | .openFailed .. | .remnantLeft .. => .warn
  | .enableRequested => .info
  | _ => .debug

/-- The text of an event. -/
def text : Event → String
  | .unsupportedProcessor => "CPU does not support SGX"
  | .noInstructions => "SGX instructions are not available"
  | .noEnclaveSize => "Maximum enclave size is zero"
  | .memoryEnded subleaf =>
    s!"No EPC memory found before invalid sub-leaf {subleaf.toNat}"
  | .memoryFound subleaf => s!"EPC section found at sub-leaf {subleaf.toNat}"
  | .enumerationCapped cap =>
    s!"Stopped EPC enumeration after {cap.toNat} sub-leaves without finding EPC memory"
  | .probeDenied path => s!"{path.text}: permission denied"
  | .probeFailed path reason => s!"{path.text}: {reason}"
  | .partitionDenied path => s!"{path.text}: permission denied, reporting disabled"
  | .partitionFailed path reason => s!"{path.text}: {reason}, reporting disabled"
  | .variablesMissing efiRoot efivarsDir =>
    s!"{efiRoot.text} exists but {efivarsDir.text} does not"
  | .noControlInterface => "No software control interface"
  | .nothingToEnable status => s!"Nothing to enable, status is {status.name}"
  | .offerRead attributes maxEpcSize =>
    s!"EPCBIOS attributes=0x{Text.hexadecimal attributes.toNat} " ++
      s!"max_epc_size=0x{Text.hexadecimal maxEpcSize.toNat}"
  | .enableRequested => "Software enable requested, reboot to finish enabling SGX"
  | .openFailed path error => s!"{path.text}: {error.text}"
  | .remnantLeft path error =>
    s!"Failed to remove partially written {path.text}: {error.text}"
  | .recordWritten path count => s!"Wrote {count} bytes to {path.text}"

end Event

end SgxActivation
