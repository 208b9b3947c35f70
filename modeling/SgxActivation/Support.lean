import SgxActivation.Program

/-!
# Processor support

What a processor says about enclaves: whether it **supports** them at all, and
whether they are **active**, that is, usable now, with protected memory behind
them. `Support.examine` finds out by queries alone:

* the vendor and the feature bit decide on support;
* an instruction set, an enclave size and one section of protected memory, the
  latter searched for among at most `cap` sub-leaves, decide on activity.
-/

namespace SgxActivation

/-- What a processor says about enclaves. -/
structure Support where
  supported : Bool
  active : Bool
  deriving DecidableEq, Repr

namespace Support

open Cpuid

/-- No enclaves. -/
def none : Support := ⟨false, false⟩

/-- Searches for a section of memory among the next `remaining` sub-leaves,
`subleaf` first. The search ends at the first sub-leaf that describes no
section, at the first one with memory behind it, or at the cap. -/
def searchMemory (cap : UInt32) : (remaining : Nat) → (subleaf : UInt32) → Program Bool
  | 0, _ => do
    Program.log (.enumerationCapped cap)
    return false
  | remaining + 1, subleaf => do
    let registers ← Program.query enclaveLeaf subleaf
    if !registers.isValidSection then
      Program.log (.memoryEnded subleaf)
      return false
    else if registers.hasMemory then
      Program.log (.memoryFound subleaf)
      return true
    else
      searchMemory cap remaining (subleaf + 1)

/-- Whether the processor has enclaves. -/
def examineFeature : Program Bool := do
  let vendor ← Program.query vendorLeaf 0
  if vendor.isIntel then
    let features ← Program.query featureLeaf 0
    return features.hasEnclaveFeature
  else
    return false

/-- Whether a processor that has enclaves can run one now. -/
def examineActivity (cap : UInt32) : Program Bool := do
  let registers ← Program.query enclaveLeaf 0
  if !registers.hasInstructions then
    Program.log .noInstructions
    return false
  else if !registers.hasEnclaveSize then
    Program.log .noEnclaveSize
    return false
  else
    searchMemory cap cap.toNat firstMemorySubleaf

/-- Finds out what the processor says about enclaves. -/
def examine (cap : UInt32) : Program Support := do
  if ← examineFeature then
    let active ← examineActivity cap
    return ⟨true, active⟩
  else
    Program.log .unsupportedProcessor
    return none

end Support

end SgxActivation
