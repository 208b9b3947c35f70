import SgxActivation.Config
import SgxActivation.Toml.Grammar

/-!
# Configuration documents

A configuration is written in TOML. It is laid over the defaults field by field:
what the document gives is taken as it stands, what it leaves out keeps its
default, and names that mean nothing here are ignored at every level.

A section is a table, or an array that gives the fields by position. Surplus
items of an array are ignored. A bare moment in place of a section gives
nothing.
-/

namespace SgxActivation.Config

open Toml

/-- Why a document gives no configuration. -/
inductive Misfit where
  /-- It is not TOML. -/
  | malformed
  /-- A section is neither a table nor an array. -/
  | wrongSection (name : String)
  /-- A field has a value of the wrong type or out of range. -/
  | wrongField (name : String)
  deriving DecidableEq, Repr

/-- A misfit in words. -/
def Misfit.words : Misfit → String
  | .malformed => "the document is not TOML"
  | .wrongSection name => s!"{name} is neither a table nor an array"
  | .wrongField name => s!"{name} has the wrong type or is out of range"

/-- The failure that tells a misfit. -/
def Misfit.failure (misfit : Misfit) : Failure :=
  ⟨.invalidParameter, "Invalid configuration: " ++ misfit.words⟩

/-- What a document says about one section. -/
inductive Given where
  | nothing
  | byName (entries : Entries)
  | byPosition (items : List Value)

/-- The value that is given to the field of this name and position. -/
def Given.field? (given : Given) (name : String) (position : Nat) : Option Value :=
  match given with
  | .nothing => none
  | .byName entries => entries.get? name
  | .byPosition items => items[position]?

/-- What a document says about the section of this name. -/
def given (document : Entries) (name : String) : Except Misfit Given :=
  match document.get? name with
  | none | some (.moment _) => .ok .nothing
  | some (.table entries) => .ok (.byName entries)
  | some (.array items) => .ok (.byPosition items)
  | some _ => .error (.wrongSection name)

/-- The path that a field gives, or its default. -/
def pathOr (field : PathField) (default : Path) : Option Value → Except Misfit Path
  | none => .ok default
  | some (.text text) => .ok ⟨text⟩
  | some _ => .error (.wrongField field.name)

/-- The cap that the document gives, or its default. -/
def capOr (default : UInt32) : Option Value → Except Misfit UInt32
  | none => .ok default
  | some (.integer n) =>
    if 0 ≤ n && n ≤ 0xffffffff then .ok n.toNat.toUInt32
    else .error (.wrongField "cpu.max_epc_subleaves")
  | some _ => .error (.wrongField "cpu.max_epc_subleaves")

/-- The files that the document gives. -/
def locationsOf (document : Entries) : Except Misfit Locations := do
  let defaults : Locations := {}
  let paths ← given document "paths"
  return {
    efiRoot := ← pathOr .efiRoot defaults.efiRoot (paths.field? "efi_root" 0)
    efivarsDir := ← pathOr .efivarsDir defaults.efivarsDir (paths.field? "efivars_dir" 1)
    bootEfi := ← pathOr .bootEfi defaults.bootEfi (paths.field? "boot_efi" 2) }

/-- The cap that the document gives. -/
def subleafCapOf (document : Entries) : Except Misfit UInt32 := do
  let defaults : Config := {}
  let cpu ← given document "cpu"
  capOr defaults.subleafCap (cpu.field? "max_epc_subleaves" 0)

/-- The configuration that a document's entries give. -/
def ofEntries (document : Entries) : Except Misfit Config := do
  return { locations := ← locationsOf document, subleafCap := ← subleafCapOf document }

/-- The configuration that a document gives. -/
def ofDocument (document : String) : Except Failure Config :=
  match Toml.parse document with
  | none => .error Misfit.malformed.failure
  | some entries => (ofEntries entries).mapError Misfit.failure

end SgxActivation.Config
