import SgxActivation.Record

/-!
# Records, byte by byte

What a request takes from the offer that it answers:

* `wordBytes_word` — words do not disturb the bytes that they are read from, and
  `wordBytes_inj` — the bytes tell the word;
* `Offer.ofBytes_of_le` — twelve bytes suffice for an offer, and its request
  consists of their first four and their last four;
* `Offer.ofBytes_of_lt` — fewer are told by their number.
-/

namespace SgxActivation.Record

/-- The bytes of a word are those it was put together from. -/
theorem wordBytes_word (b₀ b₁ b₂ b₃ : UInt8) :
    wordBytes (word b₀ b₁ b₂ b₃) = [b₀, b₁, b₂, b₃] := by
  simp only [wordBytes, word, List.cons.injEq, and_true]
  refine ⟨?_, ?_, ?_, ?_⟩
  all_goals
    apply UInt8.toBitVec_inj.1
    ext i hi
    have h7 : i ≤ 7 := by omega
    have h15 : i ≤ 15 := by omega
    simp +arith (disch := omega) [BitVec.getElem_setWidth, BitVec.getLsbD_eq_getElem, h7, h15]

theorem length_wordBytes (w : UInt32) : (wordBytes w).length = 4 := rfl

/-- The bytes of a word tell the word. -/
theorem wordBytes_inj {v w : UInt32} : wordBytes v = wordBytes w ↔ v = w := by
  refine ⟨fun h => ?_, congrArg wordBytes⟩
  simp only [wordBytes, List.cons.injEq, and_true, ← UInt8.toNat_inj, UInt32.toNat_toUInt8,
    UInt32.toNat_shiftRight, UInt32.reduceToNat, Nat.reduceMod, Nat.shiftRight_eq_div_pow] at h
  apply UInt32.toNat_inj.1
  have hv := v.toNat_lt
  have hw := w.toNat_lt
  omega

/-- The bytes of the request that takes up the offer in `bytes`. -/
def requestBytes (bytes : Bytes) : Bytes := bytes.take 4 ++ (bytes.drop 8).take 4

/-- Only the twelve bytes that are read of an offer count for its request. -/
theorem requestBytes_take (bytes : Bytes) :
    requestBytes (bytes.take Offer.size) = requestBytes bytes := by
  simp [requestBytes, Offer.size, List.take_take, List.drop_take]

theorem Offer.ofBytes_of_le {bytes : Bytes} (h : Offer.size ≤ bytes.length) :
    ∃ offer, Offer.ofBytes bytes = .ok offer ∧ offer.request.toBytes = requestBytes bytes := by
  match bytes, h with
  | _ :: _ :: _ :: _ :: _ :: _ :: _ :: _ :: _ :: _ :: _ :: _ :: _, _ =>
    exact ⟨_, rfl, by simp [Offer.request, Request.toBytes, requestBytes, wordBytes_word]⟩

theorem Offer.ofBytes_of_lt {bytes : Bytes} (h : bytes.length < Offer.size) :
    Offer.ofBytes bytes =
      .error ⟨.unexpected, s!"EPCBIOS record is {bytes.length} bytes, expected {Offer.size}"⟩ := by
  unfold Offer.ofBytes
  split
  · simp [Offer.size] at h
    omega
  · rfl

end SgxActivation.Record
