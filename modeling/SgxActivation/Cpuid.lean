/-!
# Processor identification

One query names a **leaf** and a **sub-leaf** and is answered by four 32-bit
**registers**. The tests below read what a register says about enclaves:

* leaf 0 spells the vendor, leaf 7 has the feature bit;
* sub-leaf 0 of leaf 0x12 tells which instruction sets there are and how large
  an enclave may be;
* the sub-leaves from 2 on each describe one section of protected memory by its
  base and its size, 52-bit numbers with their low twelve bits clear.
-/

namespace SgxActivation

/-- The registers that answer one query. -/
structure Registers where
  eax : UInt32 := 0
  ebx : UInt32 := 0
  ecx : UInt32 := 0
  edx : UInt32 := 0
  deriving DecidableEq, Repr

namespace Cpuid

/-- The leaf that spells the vendor. -/
def vendorLeaf : UInt32 := 0x00

/-- The leaf with the structured extended feature bits. -/
def featureLeaf : UInt32 := 0x07

/-- The leaf that describes enclave support. -/
def enclaveLeaf : UInt32 := 0x12

/-- The first sub-leaf of the enclave leaf that describes memory. -/
def firstMemorySubleaf : UInt32 := 2

end Cpuid

namespace Registers

/-- Whether bit `position` of a word is set. -/
def bit (word : UInt32) (position : UInt32) : Bool := word &&& (1 <<< position) != 0

/-- Leaf 0 spells `Genu`, `ineI`, `ntel`. -/
def isIntel (r : Registers) : Bool :=
  r.ebx == 0x756e6547 && r.edx == 0x49656e69 && r.ecx == 0x6c65746e

/-- Leaf 7 has the enclave feature bit. -/
def hasEnclaveFeature (r : Registers) : Bool := bit r.ebx 2

/-- At least one of the two enclave instruction sets is there. -/
def hasInstructions (r : Registers) : Bool := r.eax &&& 0x3 != 0

/-- An enclave may have a size at all, in either mode. -/
def hasEnclaveSize (r : Registers) : Bool := r.edx &&& 0xFFFF != 0

/-- The sub-leaf describes a section. -/
def isValidSection (r : Registers) : Bool := bit r.eax 0

/-- The section has a base. -/
def hasBase (r : Registers) : Bool := r.eax &&& 0xFFFFF000 != 0 || r.ebx &&& 0xFFFFF != 0

/-- The section has a size. -/
def hasSize (r : Registers) : Bool := r.ecx &&& 0xFFFFF000 != 0 || r.edx &&& 0xFFFFF != 0

/-- There is memory behind the section. -/
def hasMemory (r : Registers) : Bool := r.hasBase && r.hasSize

end Registers

end SgxActivation
