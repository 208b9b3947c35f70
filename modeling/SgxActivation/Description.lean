import SgxActivation.Config
import SgxActivation.Text.Quoted

/-!
# Descriptions

One line that names every field of accepted settings, for diagnosis. Records
are written as a name and their fields in braces, paths as quoted texts.
-/

namespace SgxActivation

namespace Description

/-- A record: its name, and in braces what it holds. -/
def record (name content : String) : String := name ++ " \x7b " ++ content ++ " \x7d"

/-- Fields, each a name and a value, with a comma between. -/
def fields (pairs : List (String × String)) : String :=
  ", ".intercalate (pairs.map fun pair => pair.1 ++ ": " ++ pair.2)

end Description

open Description

/-- The files in one line. -/
def Locations.describe (locations : Locations) : String :=
  record "EfiPaths" <| fields
    [("efi_root", Text.quoted locations.efiRoot.text),
    ("efivars_dir", Text.quoted locations.efivarsDir.text),
    ("boot_efi", Text.quoted locations.bootEfi.text)]

/-- A configuration in one line. -/
def Config.describe (config : Config) : String :=
  record "SgxEnableConfig" <| fields
    [("paths", config.locations.describe),
    ("cpu", record "CpuConfig" <| fields
      [("max_epc_subleaves", toString config.subleafCap.toNat)])]

/-- Accepted settings in one line; the two dots stand for the machine, which is
not described. -/
def Settings.describe (settings : Settings) : String :=
  record "SgxCapability" (fields [("config", settings.config.describe)] ++ ", ..")

end SgxActivation
