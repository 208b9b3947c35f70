import SgxActivation.Failure

/-!
# Firmware control records

Two firmware variables carry the software enable. Firmware publishes the
**offer** (EPCBIOS): its attribute word, a reserved word and the largest
protected memory size that it grants. The operating system answers with the
**request** (EPCSW): the attribute word and the size asked for. Words are 32
bits wide and stand lowest byte first.

* `Offer.ofBytes` reads the first twelve bytes of an offer and ignores the rest;
* `Offer.request` asks for all that is offered, under the same attributes;
* `Request.toBytes` writes the eight bytes of a request.
-/

namespace SgxActivation

/-- File and variable contents. -/
abbrev Bytes := List UInt8

namespace Record

/-- The word whose bytes are given lowest first. -/
def word (b₀ b₁ b₂ b₃ : UInt8) : UInt32 :=
  b₀.toUInt32 ||| b₁.toUInt32 <<< 8 ||| b₂.toUInt32 <<< 16 ||| b₃.toUInt32 <<< 24

/-- The four bytes of a word, lowest first. -/
def wordBytes (w : UInt32) : Bytes :=
  [w.toUInt8, (w >>> 8).toUInt8, (w >>> 16).toUInt8, (w >>> 24).toUInt8]

/-- What firmware publishes when it supports the software enable. -/
structure Offer where
  attributes : UInt32
  reserved : UInt32
  maxEpcSize : UInt32
  deriving DecidableEq, Repr

/-- What is written to ask for the software enable. -/
structure Request where
  attributes : UInt32
  maxEpcSize : UInt32
  deriving DecidableEq, Repr

/-- Bytes that are read of an offer; firmware may append more. -/
def Offer.size : Nat := 12

/-- Reads an offer from the front of `bytes`. Fewer than twelve bytes are no
offer. -/
def Offer.ofBytes : Bytes → Except Failure Offer
  | a₀ :: a₁ :: a₂ :: a₃ :: r₀ :: r₁ :: r₂ :: r₃ :: m₀ :: m₁ :: m₂ :: m₃ :: _ =>
    .ok ⟨word a₀ a₁ a₂ a₃, word r₀ r₁ r₂ r₃, word m₀ m₁ m₂ m₃⟩
  | short =>
    .error ⟨.unexpected,
      s!"EPCBIOS record is {short.length} bytes, expected {Offer.size}"⟩

/-- The request that takes up an offer in full. -/
def Offer.request (offer : Offer) : Request := ⟨offer.attributes, offer.maxEpcSize⟩

/-- The eight bytes of a request. -/
def Request.toBytes (request : Request) : Bytes :=
  wordBytes request.attributes ++ wordBytes request.maxEpcSize

end Record

end SgxActivation
