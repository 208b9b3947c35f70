import Mathlib.Data.Nat.Digits.Defs
import SgxActivation.Proofs.Record

/-!
# Offers and requests as bytes

The decoder of offers, the conversion to a request and the encoder of requests put the same
fields at different offsets.

* **`littleEndian`** — the number that bytes stand for, and `littleEndian_wordBytes`,
  `toNat_word` — words are written and read that way;
* **`Offer.byOffset?`** — the decoder with every byte asked for by its index: no index is out
  of range, and what it decodes is the offer;
* `Offer.ofBytes_append`, `Offer.toNat_of_ofBytes` — what stands behind twelve bytes does not
  matter, and the words of an offer are the numbers in them;
* `codec` — what is decoded, what is encoded again, and that both tell their words.
-/

namespace SgxActivation.Record

/-! ## Words as numbers -/

/-- The number whose bytes are given lowest first. -/
def littleEndian (bytes : Bytes) : Nat := Nat.ofDigits 256 (bytes.map UInt8.toNat)

theorem littleEndian_wordBytes (w : UInt32) : littleEndian (wordBytes w) = w.toNat := by
  have hw := w.toNat_lt
  simp only [littleEndian, wordBytes, List.map_cons, List.map_nil, Nat.ofDigits_cons,
    Nat.ofDigits_nil, UInt32.toNat_toUInt8, UInt32.toNat_shiftRight, UInt32.reduceToNat,
    Nat.reduceMod, Nat.shiftRight_eq_div_pow]
  omega

theorem toNat_word (b₀ b₁ b₂ b₃ : UInt8) :
    (word b₀ b₁ b₂ b₃).toNat = littleEndian [b₀, b₁, b₂, b₃] := by
  rw [← littleEndian_wordBytes, wordBytes_word]

/-- The word that is put together from the bytes of a word. -/
theorem word_of_wordBytes {w : UInt32} {b₀ b₁ b₂ b₃ : UInt8}
    (h : wordBytes w = [b₀, b₁, b₂, b₃]) : word b₀ b₁ b₂ b₃ = w :=
  wordBytes_inj.1 ((wordBytes_word ..).trans h.symm)

/-! ## Reading by offsets -/

/-- The word at an offset, or nothing if one of its bytes is out of range. -/
def wordAt? (bytes : Bytes) (offset : Nat) : Option UInt32 := do
  return word (← bytes[offset]?) (← bytes[offset + 1]?) (← bytes[offset + 2]?)
    (← bytes[offset + 3]?)

/-- Reads an offer by the offsets of its words. Nothing comes of it if a byte out of range is
asked for. -/
def Offer.byOffset? (bytes : Bytes) : Option (Except Failure Offer) :=
  if bytes.length < Offer.size then
    some (.error ⟨.unexpected,
      s!"EPCBIOS record is {bytes.length} bytes, expected {Offer.size}"⟩)
  else do
    return .ok ⟨← wordAt? bytes 0, ← wordAt? bytes 4, ← wordAt? bytes 8⟩

/-- Twelve bytes, and what stands behind them. -/
theorem Offer.exists_layout {bytes : Bytes} (h : Offer.size ≤ bytes.length) :
    ∃ a₀ a₁ a₂ a₃ r₀ r₁ r₂ r₃ m₀ m₁ m₂ m₃ tail,
      bytes = a₀ :: a₁ :: a₂ :: a₃ :: r₀ :: r₁ :: r₂ :: r₃ :: m₀ :: m₁ :: m₂ :: m₃ :: tail := by
  match bytes, h with
  | _ :: _ :: _ :: _ :: _ :: _ :: _ :: _ :: _ :: _ :: _ :: _ :: _, _ =>
    exact ⟨_, _, _, _, _, _, _, _, _, _, _, _, _, rfl⟩

/-- No byte out of range is asked for, and read by offsets, an offer is what it is. -/
theorem Offer.byOffset?_eq (bytes : Bytes) :
    Offer.byOffset? bytes = some (Offer.ofBytes bytes) := by
  unfold Offer.byOffset?
  split
  · rename_i hshort
    rw [Offer.ofBytes_of_lt hshort]
  · rename_i hlong
    obtain ⟨_, _, _, _, _, _, _, _, _, _, _, _, _, rfl⟩ := Offer.exists_layout (not_lt.1 hlong)
    rfl

/-! ## What is behind an offer -/

/-- What stands behind the bytes of an offer changes nothing. -/
theorem Offer.ofBytes_append {bytes : Bytes} (h : Offer.size ≤ bytes.length) (tail : Bytes) :
    Offer.ofBytes (bytes ++ tail) = Offer.ofBytes bytes := by
  obtain ⟨_, _, _, _, _, _, _, _, _, _, _, _, _, rfl⟩ := Offer.exists_layout h
  rfl

theorem Offer.ofBytes_take {bytes : Bytes} (h : Offer.size ≤ bytes.length) :
    Offer.ofBytes (bytes.take Offer.size) = Offer.ofBytes bytes := by
  have htake : Offer.size ≤ (bytes.take Offer.size).length := by
    rw [List.length_take]
    omega
  rw [← Offer.ofBytes_append htake (bytes.drop Offer.size), List.take_append_drop]

theorem Offer.exists_ofBytes_iff {bytes : Bytes} :
    (∃ offer, Offer.ofBytes bytes = .ok offer) ↔ Offer.size ≤ bytes.length := by
  constructor
  · rintro ⟨offer, hoffer⟩
    by_contra hshort
    rw [Offer.ofBytes_of_lt (not_le.1 hshort)] at hoffer
    cases hoffer
  · intro hlong
    obtain ⟨offer, hoffer, -⟩ := Offer.ofBytes_of_le hlong
    exact ⟨offer, hoffer⟩

/-- The words of an offer are the numbers that its bytes stand for, lowest first. -/
theorem Offer.toNat_of_ofBytes {bytes : Bytes} {offer : Offer}
    (h : Offer.ofBytes bytes = .ok offer) :
    offer.attributes.toNat = littleEndian (bytes.take 4) ∧
      offer.reserved.toNat = littleEndian ((bytes.drop 4).take 4) ∧
      offer.maxEpcSize.toNat = littleEndian ((bytes.drop 8).take 4) := by
  obtain ⟨_, _, _, _, _, _, _, _, _, _, _, _, _, rfl⟩ :=
    Offer.exists_layout (Offer.exists_ofBytes_iff.1 ⟨offer, h⟩)
  cases h
  exact ⟨toNat_word .., toNat_word .., toNat_word ..⟩

/-- The words of an offer are read from where they were written. -/
theorem Offer.ofBytes_wordBytes (attributes reserved maxEpcSize : UInt32) (tail : Bytes) :
    Offer.ofBytes (wordBytes attributes ++ wordBytes reserved ++ wordBytes maxEpcSize ++ tail) =
      .ok ⟨attributes, reserved, maxEpcSize⟩ := by
  have hword (w : UInt32) :
      word w.toUInt8 (w >>> 8).toUInt8 (w >>> 16).toUInt8 (w >>> 24).toUInt8 = w :=
    word_of_wordBytes rfl
  show Except.ok (Offer.mk (word ..) (word ..) (word ..)) = _
  rw [hword, hword, hword]

/-! ## Requests -/

/-- The bytes of a request tell both of its words. -/
theorem Request.toBytes_injective : Function.Injective Request.toBytes := by
  intro request other h
  obtain ⟨hattributes, hsize⟩ := List.append_inj h rfl
  cases request
  cases other
  congr
  · exact wordBytes_inj.1 hattributes
  · exact wordBytes_inj.1 hsize

/-- An offer is decoded from twelve bytes or more, without a look at a byte that is not there,
and what follows the twelve does not count. Its words are the numbers that stand there, lowest
byte first. Its request is encoded as the first four and the last four of the twelve, whatever
stands between. A request can be told from its bytes, and an offer is decoded from the bytes
that its words are written as. -/
theorem codec :
    (∀ bytes, Offer.byOffset? bytes = some (Offer.ofBytes bytes)) ∧
    (∀ bytes, (∃ offer, Offer.ofBytes bytes = .ok offer) ↔ 12 ≤ bytes.length) ∧
    (∀ bytes : Bytes, 12 ≤ bytes.length →
      Offer.ofBytes (bytes.take 12) = Offer.ofBytes bytes ∧
      (∀ tail, Offer.ofBytes (bytes ++ tail) = Offer.ofBytes bytes) ∧
      ∃ offer, Offer.ofBytes bytes = .ok offer ∧
        offer.request.toBytes = bytes.take 4 ++ (bytes.drop 8).take 4 ∧
        offer.attributes.toNat = littleEndian (bytes.take 4) ∧
        offer.reserved.toNat = littleEndian ((bytes.drop 4).take 4) ∧
        offer.maxEpcSize.toNat = littleEndian ((bytes.drop 8).take 4)) ∧
    Function.Injective Request.toBytes ∧
    (∀ attributes reserved maxEpcSize tail,
      Offer.ofBytes (wordBytes attributes ++ wordBytes reserved ++ wordBytes maxEpcSize ++ tail) =
        .ok ⟨attributes, reserved, maxEpcSize⟩) ∧
    ∀ w, (wordBytes w).length = 4 ∧ littleEndian (wordBytes w) = w.toNat := by
  refine ⟨Offer.byOffset?_eq, fun _ => Offer.exists_ofBytes_iff, fun bytes enough => ?_,
    Request.toBytes_injective, Offer.ofBytes_wordBytes,
    fun w => ⟨length_wordBytes w, littleEndian_wordBytes w⟩⟩
  obtain ⟨offer, hoffer, hrequest⟩ := Offer.ofBytes_of_le enough
  exact ⟨Offer.ofBytes_take enough, Offer.ofBytes_append enough, offer, hoffer, hrequest,
    Offer.toNat_of_ofBytes hoffer⟩

/-- An offer with two bytes behind it, of which no trace is left in its request. -/
theorem codec_trailing :
    let bytes : Bytes := [7, 0, 0, 0, 1, 2, 3, 4, 0x78, 0x56, 0x34, 0x12, 0xaa, 0xbb]
    12 ≤ bytes.length ∧ ∃ offer, Offer.ofBytes bytes = .ok offer ∧
      offer.request.toBytes = [7, 0, 0, 0, 0x78, 0x56, 0x34, 0x12] ∧
      offer.maxEpcSize.toNat = 0x12345678 := by
  intro bytes
  obtain ⟨-, -, hdecoded, -⟩ := codec
  obtain ⟨-, -, offer, hoffer, hrequest, -, -, hsize⟩ := hdecoded bytes (by decide)
  exact ⟨by decide, offer, hoffer, hrequest, hsize⟩

end SgxActivation.Record
