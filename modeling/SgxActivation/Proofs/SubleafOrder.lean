import SgxActivation.Proofs.Architecture

/-!
# The order of the enumerated sub-leaves

The sub-leaves that a search for memory asks about are numbered by words. The next number is
worked out before the current one is handed out, so that it is the highest of them that
matters whether a number fits.

* **`countUp`** — numbers counted up so, if all of them fit;
* **`InOrder`** — what one expects of the enumerated sub-leaves: they begin at the first one
  for memory, increase, come once each, and are counted up;
* **`Overruns`** — the one exception: a cap that reaches the last sub-leaf of all, and a
  processor that describes nothing but empty sections before it;
* `Settings.enumerated_inOrder_iff` — the sub-leaves are in order exactly if there is no
  overrun; `enumerated_wraps` is one, and ends in a wrong answer.
-/

namespace SgxActivation

variable {κ σ : Type}

open Cpuid Exchange

namespace Support

/-! ## Consecutive numbers -/

/-- Words counted up from the first one, past the highest word to zero. -/
def consecutive (first : UInt32) (count : Nat) : List UInt32 :=
  (List.range count).map fun i => first + UInt32.ofNat i

/-- Words counted up from `start`, each with the next one worked out before; there is nothing
to hand out where the next number is no word. -/
def countUp : (count : Nat) → (start : UInt32) → Option (List UInt32)
  | 0, _ => some []
  | count + 1, start =>
    if start.toNat + 1 < 2 ^ 32 then (countUp count (start + 1)).map (start :: ·) else Option.none

theorem length_consecutive (first : UInt32) (count : Nat) :
    (consecutive first count).length = count := by
  simp [consecutive]

theorem consecutive_succ (first : UInt32) (count : Nat) :
    consecutive first (count + 1) = first :: consecutive (first + 1) count := by
  have hshift : ((fun i => first + UInt32.ofNat i) ∘ Nat.succ) =
      fun i => first + 1 + UInt32.ofNat i := funext (add_ofNat_succ first)
  unfold consecutive
  rw [List.range_succ_eq_map, List.map_cons, List.map_map, hshift]
  simp

theorem consecutive_concat (first : UInt32) (count : Nat) :
    consecutive first (count + 1) = consecutive first count ++ [first + UInt32.ofNat count] := by
  simp [consecutive, List.range_succ]

/-- A number that fits a word is the one meant. -/
theorem toNat_add_ofNat {first : UInt32} {i : Nat} (fits : first.toNat + i < 2 ^ 32) :
    (first + UInt32.ofNat i).toNat = first.toNat + i := by
  rw [UInt32.toNat_add, UInt32.toNat_ofNat']
  omega

/-- Counting up succeeds exactly if also the number after the last one fits a word. -/
theorem countUp_eq (count : Nat) (first : UInt32) :
    countUp count first =
      if first.toNat + count < 2 ^ 32 then some (consecutive first count) else Option.none := by
  induction count generalizing first with
  | zero => exact (if_pos first.toNat_lt).symm
  | succ count ih =>
    unfold countUp
    by_cases hnext : first.toNat + 1 < 2 ^ 32
    · have hsucc : (first + 1).toNat = first.toNat + 1 := toNat_add_ofNat (i := 1) hnext
      rw [if_pos hnext, ih, hsucc, consecutive_succ, Nat.add_assoc, Nat.add_comm 1]
      split <;> rfl
    · rw [if_neg hnext, if_neg (by omega)]

/-! ## Enumerated sub-leaves -/

/-- The sub-leaf of the enclave leaf that an exchange asks about, if it does. -/
def enclaveSubleaf? : Exchange → Option UInt32
  | .query leaf subleaf _ => if leaf = enclaveLeaf then some subleaf else Option.none
  | _ => Option.none

/-- The sub-leaves that are asked about after the capabilities, which come first. -/
def enumerated (trace : List Exchange) : List UInt32 := (trace.filterMap enclaveSubleaf?).tail

/-- Sub-leaves as they should be enumerated: from the first one for memory on, each after the
one before, none twice, and with no number on the way that is no word. -/
structure InOrder (subleaves : List UInt32) : Prop where
  starts : ∀ first ∈ subleaves.head?, first = firstMemorySubleaf
  increasing : subleaves.Pairwise (· < ·)
  above : ∀ subleaf ∈ subleaves, firstMemorySubleaf ≤ subleaf
  once : subleaves.Nodup
  counted : countUp subleaves.length firstMemorySubleaf = some subleaves

/-- The search may reach the last sub-leaf of all, and there is nothing but empty sections
before that one. -/
def Overruns (cap : UInt32) (trace : List Exchange) : Prop :=
  2 ^ 32 - 2 ≤ cap.toNat ∧ ∀ number < 2 ^ 32 - 3, ∃ registers, registers.IsEmptySection ∧
    .query enclaveLeaf (firstMemorySubleaf + UInt32.ofNat number) registers ∈ trace

theorem toNat_memorySubleaf {number : Nat} (fits : number < 2 ^ 32 - 2) :
    (firstMemorySubleaf + UInt32.ofNat number).toNat = 2 + number :=
  toNat_add_ofNat (show 2 + number < 2 ^ 32 by omega)

/-- The capabilities are not among the sub-leaves whose numbers fit. -/
theorem memorySubleaf_ne_zero {number : Nat} (fits : number < 2 ^ 32 - 2) :
    firstMemorySubleaf + UInt32.ofNat number ≠ 0 := by
  intro hzero
  have htoNat := congrArg UInt32.toNat hzero
  rw [toNat_memorySubleaf fits, UInt32.toNat_zero] at htoNat
  omega

/-- They are what follows the last one. -/
theorem memorySubleaf_wraps : firstMemorySubleaf + UInt32.ofNat (2 ^ 32 - 2) = 0 := by decide

theorem inOrder_consecutive {count : Nat} :
    InOrder (consecutive firstMemorySubleaf count) ↔ count < 2 ^ 32 - 2 := by
  constructor
  · intro h
    have hcounted := h.counted
    rw [length_consecutive, countUp_eq] at hcounted
    split at hcounted
    · rename_i hfits
      have hfirst : firstMemorySubleaf.toNat = 2 := rfl
      omega
    · cases hcounted
  · intro hcount
    have hincreasing : (consecutive firstMemorySubleaf count).Pairwise (· < ·) := by
      refine List.pairwise_map.2 (List.pairwise_lt_range.imp_of_mem fun hi hj hlt => ?_)
      rw [UInt32.lt_iff_toNat_lt, toNat_memorySubleaf (by have := List.mem_range.1 hi; omega),
        toNat_memorySubleaf (by have := List.mem_range.1 hj; omega)]
      omega
    refine ⟨fun first hfirst => ?_, hincreasing, fun subleaf member => ?_,
      hincreasing.imp UInt32.ne_of_lt, ?_⟩
    · cases count with
      | zero => cases hfirst
      | succ count =>
        rw [consecutive_succ] at hfirst
        exact (Option.some.inj hfirst).symm
    · obtain ⟨number, hnumber, rfl⟩ := List.mem_map.1 member
      rw [UInt32.le_iff_toNat_le,
        toNat_memorySubleaf (by have := List.mem_range.1 hnumber; omega)]
      exact Nat.le_add_right 2 number
    · rw [length_consecutive, countUp_eq, if_pos]
      show 2 + count < 2 ^ 32
      omega

/-! ## Searches -/

variable {cap : UInt32} {trace : List Exchange}

theorem filterMap_sweep (first : UInt32) (sections : List Registers) :
    (sweep first sections).filterMap enclaveSubleaf? = consecutive first sections.length := by
  induction sections generalizing first with
  | nil => rfl
  | cons registers rest ih =>
    rw [sweep_cons, List.length_cons, consecutive_succ, ← ih]
    rfl

theorem query_mem_sweep {first subleaf : UInt32} {sections : List Registers}
    {registers : Registers} :
    .query enclaveLeaf subleaf registers ∈ sweep first sections ↔
      ∃ (number : Nat) (h : number < sections.length),
        subleaf = first + UInt32.ofNat number ∧ registers = sections[number] := by
  simp [sweep, List.mem_mapIdx, eq_comm]

/-- A search stops at its cap, or with a query about something other than an empty section. -/
theorem Ending.decides {remaining : Nat} {subleaf : UInt32} {ending : List Exchange} {found : Bool}
    (h : Ending cap remaining subleaf ending found) :
    remaining = 0 ∧ ending = [.event (.enumerationCapped cap)] ∨
      ∃ registers event, 0 < remaining ∧ ¬ registers.IsEmptySection ∧
        ending = [.query enclaveLeaf subleaf registers, .event event] := by
  cases h with
  | capped => exact .inl ⟨rfl, rfl⟩
  | @invalid remaining _ registers hinvalid =>
    refine .inr ⟨registers, _, Nat.succ_pos _, fun hempty => ?_, rfl⟩
    cases hinvalid.symm.trans hempty.1
  | @found remaining _ registers hvalid hmemory =>
    refine .inr ⟨registers, _, Nat.succ_pos _, fun hempty => ?_, rfl⟩
    cases hmemory.symm.trans hempty.2

/-- A search asks about consecutive sub-leaves. It asks about the last sub-leaf of all exactly
if it overruns. -/
theorem Searched.overruns_iff {found : Bool}
    (h : Searched cap cap.toNat firstMemorySubleaf trace found) :
    ∃ count ≤ cap.toNat,
      trace.filterMap enclaveSubleaf? = consecutive firstMemorySubleaf count ∧
        (Overruns cap trace ↔ 2 ^ 32 - 2 ≤ count) := by
  obtain ⟨passed, remaining, ending, hpassed, hlimit, hending, rfl⟩ := h
  -- Whatever ends the search, the empty sections that it passed are in its trace.
  have hempty (number : Nat) (hnumber : number < passed.length) : ∃ registers,
      registers.IsEmptySection ∧
      .query enclaveLeaf (firstMemorySubleaf + UInt32.ofNat number) registers ∈
        sweep firstMemorySubleaf passed ++ ending :=
    ⟨passed[number], hpassed _ (List.getElem_mem hnumber),
      List.mem_append_left _ (query_mem_sweep.2 ⟨number, hnumber, rfl, rfl⟩)⟩
  rw [List.filterMap_append, filterMap_sweep]
  rcases hending.decides with ⟨rfl, rfl⟩ | ⟨registers, event, hremaining, hother, rfl⟩
  · refine ⟨passed.length, by omega, List.append_nil _, fun h => ?_, fun hcount => ?_⟩
    · have hcap := h.1
      omega
    · exact ⟨by omega, fun number hnumber => hempty number (by omega)⟩
  · refine ⟨passed.length + 1, by omega, (consecutive_concat _ _).symm, fun h => ?_,
      fun hcount => ⟨by omega, fun number hnumber => hempty number (by omega)⟩⟩
    -- Up to the last sub-leaf of all, the numbers are different, so the section that ended the
    -- search is none of those that are empty.
    refine Nat.le_of_not_lt fun hfew => ?_
    obtain ⟨given, hgiven, member⟩ := h.2 passed.length (by omega)
    rcases List.mem_append.1 member with hswept | hended
    · obtain ⟨number, hnumber, hsame, -⟩ := query_mem_sweep.1 hswept
      have htoNat := congrArg UInt32.toNat hsame
      rw [toNat_memorySubleaf (by omega), toNat_memorySubleaf (by omega)] at htoNat
      omega
    · have hregisters : given = registers := by simpa using hended
      exact hother (hregisters ▸ hgiven)

/-- A section is asked about in the search, or not at all. -/
theorem overruns_cons {leaf : UInt32} {registers : Registers} :
    Overruns cap (.query leaf 0 registers :: trace) ↔ Overruns cap trace := by
  refine and_congr_right fun _ => forall₂_congr fun number hnumber => ?_
  have hnonzero : firstMemorySubleaf + UInt32.ofNat number ≠ 0 :=
    memorySubleaf_ne_zero (by omega)
  simp [hnonzero]

theorem not_overruns_event {event : Event} : ¬ Overruns cap [.event event] := by
  rintro ⟨-, h⟩
  obtain ⟨registers, -, member⟩ := h 0 (by omega)
  simp at member

/-- An examination enumerates consecutive sub-leaves, and no more than the cap allows. -/
theorem Examined.overruns_iff {support : Support} (h : Examined cap trace support) :
    ∃ count ≤ cap.toNat, enumerated trace = consecutive firstMemorySubleaf count ∧
      (Overruns cap trace ↔ 2 ^ 32 - 2 ≤ count) := by
  cases h with
  | foreign hvendor => exact ⟨0, Nat.zero_le _, rfl, by simp [overruns_cons, not_overruns_event]⟩
  | featureless hvendor hfeature =>
    exact ⟨0, Nat.zero_le _, rfl, by simp [overruns_cons, not_overruns_event]⟩
  | supported hvendor hfeature hactivity =>
    rw [overruns_cons, overruns_cons]
    cases hactivity with
    | instructionless hinstructions =>
      exact ⟨0, Nat.zero_le _, rfl, by simp [overruns_cons, not_overruns_event]⟩
    | sizeless hinstructions hsize =>
      exact ⟨0, Nat.zero_le _, rfl, by simp [overruns_cons, not_overruns_event]⟩
    | searched hinstructions hsize hsearch =>
      rw [overruns_cons]
      exact hsearch.overruns_iff

end Support

/-- Whatever the processor answers, the sub-leaves behind the capabilities are enumerated in
order, without a number that is no word, unless the enumeration overruns the last sub-leaf of
all. In that case too the sub-leaves are consecutive as words, no more than the cap allows. -/
theorem Settings.enumerated_inOrder_iff (settings : Settings) (machine : Machine κ σ)
    (state : Machine.State κ σ) :
    let trace := (settings.examineProcessor.run machine state).trace
    (Support.InOrder (Support.enumerated trace) ↔
      ¬ Support.Overruns settings.subleafCap trace) ∧
    ∃ count ≤ settings.subleafCap.toNat,
      Support.enumerated trace = Support.consecutive firstMemorySubleaf count := by
  intro trace
  obtain ⟨count, hcount, henumerated, hoverruns⟩ :=
    (Support.examined_run settings.subleafCap machine state).overruns_iff
  have hsame : Support.enumerated trace = Support.consecutive firstMemorySubleaf count :=
    henumerated
  refine ⟨?_, count, hcount, hsame⟩
  rw [hsame, Support.inOrder_consecutive, ← Nat.not_le]
  exact not_congr hoverruns.symm

/-! ## An overrun -/

namespace Support

/-- Where all the sections are empty and the capabilities look like one with memory, a search
without bounds comes to the capabilities again, and takes them for one. -/
theorem Searched.wraps {answers : UInt32 → UInt32 → Registers} {cap : UInt32}
    {trace : List Exchange} {found : Bool}
    (h : Searched cap cap.toNat firstMemorySubleaf trace found) (unbounded : cap = 0xFFFFFFFF)
    (answered : AnsweredBy answers trace)
    (empty : ∀ number < 2 ^ 32 - 2,
      (answers enclaveLeaf (firstMemorySubleaf + UInt32.ofNat number)).IsEmptySection)
    (valid : (answers enclaveLeaf 0).isValidSection = true)
    (memory : (answers enclaveLeaf 0).hasMemory = true) :
    found = true ∧ 0 ∈ trace.filterMap enclaveSubleaf? := by
  obtain ⟨passed, remaining, ending, hpassed, hlimit, hending, rfl⟩ := h
  have hcap : cap.toNat = 2 ^ 32 - 1 := by
    rw [unbounded]
    rfl
  -- What was passed was empty, and the capabilities are not.
  have hfew : passed.length ≤ 2 ^ 32 - 2 := by
    refine Nat.le_of_not_lt fun hmany => ?_
    have hgiven := answered _ _ _ (List.mem_append_left ending
      (query_mem_sweep.2 ⟨2 ^ 32 - 2, hmany, rfl, rfl⟩))
    rw [memorySubleaf_wraps] at hgiven
    have hempty := hpassed _ (List.getElem_mem hmany)
    rw [hgiven] at hempty
    cases memory.symm.trans hempty.2
  -- A section that is not empty ended the search, so it was that of the capabilities.
  have hwrapped (registers : Registers) (hother : ¬ registers.IsEmptySection)
      (member : .query enclaveLeaf (firstMemorySubleaf + UInt32.ofNat passed.length) registers ∈
        ending) :
      firstMemorySubleaf + UInt32.ofNat passed.length = 0 ∧ registers = answers enclaveLeaf 0 := by
    have hgiven := answered _ _ _ (List.mem_append_right _ member)
    rcases Nat.lt_or_eq_of_le hfew with hbefore | hlast
    · exact absurd (hgiven ▸ empty _ hbefore) hother
    · rw [hlast, memorySubleaf_wraps] at hgiven ⊢
      exact ⟨rfl, hgiven⟩
  cases hending with
  | capped => omega
  | invalid hinvalid =>
    obtain ⟨-, hsame⟩ := hwrapped _ (fun hempty => by cases hinvalid.symm.trans hempty.1)
      List.mem_cons_self
    rw [hsame] at hinvalid
    cases valid.symm.trans hinvalid
  | found hvalid hmemory =>
    obtain ⟨hzero, -⟩ := hwrapped _ (fun hempty => by cases hmemory.symm.trans hempty.2)
      List.mem_cons_self
    refine ⟨rfl, List.mem_filterMap.2 ⟨_, List.mem_append_right _ List.mem_cons_self, ?_⟩⟩
    rw [hzero]
    rfl

/-- A processor that describes an empty section wherever one asks, and whose capabilities look
like a section with memory. -/
def endless : Scripted.ProcessorScript where
  before := Table.ofList
    [((0, 0), ⟨22, 0x756e6547, 0x6c65746e, 0x49656e69⟩), ((7, 0), ⟨0, 4, 0, 0⟩),
      ((0x12, 0), ⟨1, 1, 0, 0x241f⟩)]
  otherwise := ⟨1, 0, 0, 0⟩

theorem query_endless {subleaf : UInt32} (h : subleaf ≠ 0) (count : Nat) :
    (endless.processor.query enclaveLeaf subleaf count).1 = ⟨1, 0, 0, 0⟩ := by
  show ((endless.before.get? (enclaveLeaf, subleaf)).getD _) = _
  simp [endless, Table.ofList, Table.get?_insert, enclaveLeaf, h]

/-- Under the highest cap, an examination of this processor comes to its capabilities twice. -/
theorem Examined.wraps {trace : List Exchange} {support : Support}
    (h : Examined 0xFFFFFFFF trace support)
    (answered : AnsweredBy (fun leaf subleaf => (endless.processor.query leaf subleaf 0).1) trace) :
    support = ⟨true, true⟩ ∧ 0 ∈ enumerated trace ∧ ¬ InOrder (enumerated trace) := by
  cases h with
  | foreign hvendor =>
    rw [answered _ _ _ List.mem_cons_self] at hvendor
    exact absurd hvendor (by decide)
  | featureless hvendor hfeature =>
    rw [answered _ _ _ (.tail _ List.mem_cons_self)] at hfeature
    exact absurd hfeature (by decide)
  | supported hvendor hfeature hactivity =>
    have hactive : AnsweredBy _ _ := fun _ _ _ member =>
      answered _ _ _ (.tail _ (.tail _ member))
    cases hactivity with
    | instructionless hinstructions =>
      rw [hactive _ _ _ List.mem_cons_self] at hinstructions
      exact absurd hinstructions (by decide)
    | sizeless hinstructions hsize =>
      rw [hactive _ _ _ List.mem_cons_self] at hsize
      exact absurd hsize (by decide)
    | searched hinstructions hsize hsearch =>
      obtain ⟨rfl, hagain⟩ := hsearch.wraps rfl
        (fun _ _ _ member => hactive _ _ _ (.tail _ member))
        (fun number hnumber => by
          show Registers.IsEmptySection (endless.processor.query enclaveLeaf _ 0).1
          rw [query_endless (memorySubleaf_ne_zero hnumber)]
          exact ⟨by decide, by decide⟩) (by decide) (by decide)
      exact ⟨rfl, hagain, fun hinOrder => absurd (hinOrder.above 0 hagain) (by decide)⟩

end Support

/-- The highest cap, which is accepted. -/
def Settings.tireless : Settings where
  config := { subleafCap := 0xFFFFFFFF }
  accepted := by decide

/-- Under the highest cap, the sub-leaves of such a processor start again from zero, and it is
found active without any memory. -/
theorem Support.enumerated_wraps :
    let machine : Machine Nat Scripted.Entries := ⟨endless.processor, Scripted.store⟩
    let examination := Settings.tireless.examineProcessor.run machine ⟨0, {}⟩
    examination.result = ⟨true, true⟩ ∧ 0 ∈ enumerated examination.trace ∧
      ¬ InOrder (enumerated examination.trace) := by
  intro machine examination
  have fixed : endless.processor.Fixed := fun _ _ _ _ => rfl
  have hfollows := Program.run_follows machine Settings.tireless.examineProcessor ⟨0, {}⟩
  exact (examined_run _ machine ⟨0, {}⟩).wraps (hfollows.answered fixed 0)

end SgxActivation
