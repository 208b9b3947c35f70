/-!
# Device status

Where a platform stands with respect to enclaves. Exactly one status describes
a platform at a time. Each has a numeric **code**, a **name** used in logs and
reports, an **explanation** for people, and an **exit code**, which is zero
only when enclaves work now or will after the pending reboot.
-/

namespace SgxActivation

/-- The seven situations that a platform can be in. -/
inductive Status where
  /-- Enclaves are usable. -/
  | enabled
  /-- The enable request is recorded; it takes effect at the next boot. -/
  | rebootRequired
  /-- The boot was a legacy one, so firmware variables are out of reach. -/
  | legacyBoot
  /-- Disabled, with no further detail. -/
  | disabled
  /-- Disabled, and the firmware accepts an enable request. -/
  | interfaceAvailable
  /-- Disabled, and only the firmware's own setup can change that. -/
  | manualEnableRequired
  /-- The processor has no enclaves. -/
  | unsupportedProcessor
  deriving DecidableEq, Repr

namespace Status

/-- All statuses. -/
def all : List Status :=
  [.enabled, .rebootRequired, .legacyBoot, .disabled, .interfaceAvailable,
    .manualEnableRequired, .unsupportedProcessor]

/-- Numeric code; six is not in use. -/
def code : Status → Nat
  | .enabled => 0
  | .rebootRequired => 1
  | .legacyBoot => 2
  | .disabled => 3
  | .interfaceAvailable => 4
  | .manualEnableRequired => 5
  | .unsupportedProcessor => 7

/-- The word for a status in logs and reports. -/
def name : Status → String
  | .enabled => "enabled"
  | .rebootRequired => "disabled_reboot_required"
  | .legacyBoot => "disabled_legacy_boot"
  | .disabled => "disabled"
  | .interfaceAvailable => "disabled_control_interface_available"
  | .manualEnableRequired => "disabled_manual_enable_required"
  | .unsupportedProcessor => "disabled_unsupported_cpu"

/-- The status that a word names. -/
def ofName? (word : String) : Option Status := all.find? (·.name == word)

/-- Usable now, or after the pending reboot. -/
def isEnabledOrPending : Status → Bool
  | .enabled | .rebootRequired => true
  | _ => false

/-- Process exit code: success exactly when enabled or pending. -/
def exitCode (status : Status) : Nat := if status.isEnabledOrPending then 0 else 1

/-- What a status means for the person who asked. -/
def explanation : Status → String
  | .enabled => "Intel SGX is already enabled on this system"
  | .unsupportedProcessor => "This CPU does not support Intel SGX"
  | .legacyBoot =>
    "This processor supports Intel SGX but was booted in legacy mode.\n" ++
    "A UEFI boot is required to determine whether or not your BIOS\n" ++
    "supports Intel SGX, and to attempt the software enable.\n" ++
    "Alternatively, you can check your BIOS to see if it has an\n" ++
    "explicit option to enable SGX."
  | .disabled =>
    "Intel SGX is explicitly disabled on your system. It may be\n" ++
    "disabled in the BIOS, or the BIOS may not support Intel SGX."
  | .manualEnableRequired =>
    "Intel SGX is explicitly disabled, and your BIOS does not\n" ++
    "support the \"software enable\" option. Check your BIOS for an\n" ++
    "explicit option to enable Intel SGX."
  | .rebootRequired =>
    "The software enable has been performed on this system and\n" ++
    "Intel SGX will be enabled after the system is rebooted."
  | .interfaceAvailable => "Intel SGX is disabled and can be enabled using this utility."

/-- Names are distinct, so a name tells the status. -/
theorem name_inj {a b : Status} : a.name = b.name ↔ a = b := by
  cases a <;> cases b <;> decide

theorem ofName?_name (status : Status) : ofName? status.name = some status := by
  cases status <;> decide

end Status

end SgxActivation
