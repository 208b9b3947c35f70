import SgxActivation.Failure
import SgxActivation.Path

/-!
# Configuration

Where the firmware's files are and how far the processor is searched. Every
field has a default that fits a stock system. The names of the two firmware
variables are fixed; only the directory that holds them can be chosen.

A configuration is **accepted** when no field has a **defect**: each path is
absolute and the cap on sub-leaves is not zero. Of several defects the first in
the order of the fields is told.
-/

namespace SgxActivation

/-- The firmware's files. -/
structure Locations where
  /-- Present only after a boot through the firmware's own interface. -/
  efiRoot : Path := ⟨"/sys/firmware/efi"⟩
  /-- Holds one file per firmware variable. -/
  efivarsDir : Path := ⟨"/sys/firmware/efi/efivars"⟩
  /-- The system partition; its presence hints at a capable installation. -/
  bootEfi : Path := ⟨"/boot/efi"⟩
  deriving DecidableEq, Repr

namespace Locations

/-- Name of the variable in which firmware publishes its offer. -/
def offerVariable : String := "EPCBIOS-c60aa7f6-e8d6-4956-8ba1-fe26298f5e87"

/-- Name of the variable in which the request is recorded. -/
def requestVariable : String := "EPCSW-d69a279b-58eb-45d1-a148-771bb9eb5251"

/-- The file of a firmware variable. -/
def variableFile (locations : Locations) (name : String) : Path :=
  locations.efivarsDir.join name

/-- The file of the offer. -/
def offer (locations : Locations) : Path := locations.variableFile offerVariable

/-- The file of the request. -/
def request (locations : Locations) : Path := locations.variableFile requestVariable

end Locations

/-- A configuration, accepted or not. -/
structure Config where
  locations : Locations := {}
  /-- How many sub-leaves are searched for protected memory. -/
  subleafCap : UInt32 := 64
  deriving DecidableEq, Repr

namespace Config

/-- The fields that hold a path. -/
inductive PathField where
  | efiRoot
  | efivarsDir
  | bootEfi
  deriving DecidableEq, Repr

/-- A path field's full name. -/
def PathField.name : PathField → String
  | .efiRoot => "paths.efi_root"
  | .efivarsDir => "paths.efivars_dir"
  | .bootEfi => "paths.boot_efi"

/-- The content of a path field. -/
def path (config : Config) : PathField → Path
  | .efiRoot => config.locations.efiRoot
  | .efivarsDir => config.locations.efivarsDir
  | .bootEfi => config.locations.bootEfi

/-- What can be wrong with a configuration. -/
inductive Defect where
  | emptyPath (field : PathField)
  | relativePath (field : PathField) (path : Path)
  | zeroCap
  deriving DecidableEq, Repr

/-- The failure that tells a defect. -/
def Defect.failure : Defect → Failure
  | .emptyPath field => ⟨.invalidParameter, s!"{field.name} is empty"⟩
  | .relativePath field path =>
    ⟨.invalidParameter, s!"{field.name} must be an absolute path, got {path.text}"⟩
  | .zeroCap => ⟨.invalidParameter, "cpu.max_epc_subleaves must be greater than zero"⟩

/-- The defect of a path field, if it has one. -/
def pathDefect? (config : Config) (field : PathField) : Option Defect :=
  if (config.path field).isEmpty then some (.emptyPath field)
  else if !(config.path field).isAbsolute then some (.relativePath field (config.path field))
  else none

/-- The first defect, in the order of the fields. -/
def defect? (config : Config) : Option Defect :=
  config.pathDefect? .efiRoot <|> config.pathDefect? .efivarsDir <|>
    config.pathDefect? .bootEfi <|>
    if config.subleafCap == 0 then some .zeroCap else none

/-- Refuses a configuration that no probe could run against. -/
def validate (config : Config) : Except Failure Unit :=
  match config.defect? with
  | some defect => .error defect.failure
  | none => .ok ()

end Config

/-- A configuration that has no defect. -/
structure Settings where
  config : Config
  accepted : config.defect? = none

namespace Settings

/-- Accepts a configuration without defect. -/
def ofConfig (config : Config) : Except Failure Settings :=
  match h : config.defect? with
  | some defect => .error defect.failure
  | none => .ok ⟨config, h⟩

/-- The firmware's files. -/
def locations (settings : Settings) : Locations := settings.config.locations

/-- How many sub-leaves are searched for protected memory. -/
def subleafCap (settings : Settings) : UInt32 := settings.config.subleafCap

end Settings

end SgxActivation
