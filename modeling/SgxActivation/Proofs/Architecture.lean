import Mathlib.Data.Nat.Bitwise
import SgxActivation.Proofs.Enumeration
import SgxActivation.Proofs.Record
import SgxActivation.Scripted.Processor
import SgxActivation.Scripted.Store

/-!
# Processor support by its architectural definition

What a processor supports, said of its answers alone: the vendor's name letter by letter,
single bits, and the base and the size of a section as 52-bit numbers.

* **`Answers.Supports`**, **`Answers.Permits`** — there are enclaves, and they may run;
* **`Registers.Blank`** — a section without memory; the first sub-leaf that is not blank
  decides whether the processor is active;
* **`Answers.Asked`** — the queries that it takes to find this out, and no others;
* `Support.examine_eq_architecture` — an examination finds exactly this, and asks exactly
  these.
-/

namespace SgxActivation

variable {κ σ : Type}

open Cpuid Exchange Record

/-! ## Registers -/

namespace Registers

/-- The twelve letters of the vendor, four in each of three registers. -/
def vendorName (r : Registers) : Bytes := wordBytes r.ebx ++ wordBytes r.edx ++ wordBytes r.ecx

/-- The name of the vendor whose processors have enclaves. -/
def intelName : Bytes := "GenuineIntel".toList.map fun letter => letter.toNat.toUInt8

/-- The number of 52 bits whose upper twenty are the lower ones of `high`, and whose lower
twelve are clear in place of those of `low`. -/
def wideNumber (high low : UInt32) : Nat :=
  high.toNat % 2 ^ 20 * 2 ^ 32 + low.toNat / 2 ^ 12 * 2 ^ 12

/-- Where a section begins. -/
def sectionBase (r : Registers) : Nat := wideNumber r.ebx r.eax

/-- How long a section is. -/
def sectionSize (r : Registers) : Nat := wideNumber r.edx r.ecx

/-- The sub-leaf describes a section. -/
def Described (r : Registers) : Prop := r.eax.toNat.testBit 0 = true

/-- The sub-leaf describes a section with memory behind it. -/
def Backed (r : Registers) : Prop := r.Described ∧ r.sectionBase ≠ 0 ∧ r.sectionSize ≠ 0

/-- The sub-leaf describes a section without memory behind it. -/
def Blank (r : Registers) : Prop := r.Described ∧ (r.sectionBase = 0 ∨ r.sectionSize = 0)

theorem backed_iff {r : Registers} : r.Backed ↔ r.Described ∧ ¬ r.Blank := by
  unfold Backed Blank
  constructor
  · rintro ⟨hdescribed, hbase, hsize⟩
    exact ⟨hdescribed, fun hblank => hblank.2.elim hbase hsize⟩
  · rintro ⟨hdescribed, hblank⟩
    exact ⟨hdescribed, fun hbase => hblank ⟨hdescribed, .inl hbase⟩,
      fun hsize => hblank ⟨hdescribed, .inr hsize⟩⟩

theorem bit_eq_testBit {position : UInt32} (word : UInt32) (h : position < 32) :
    bit word position = word.toNat.testBit position.toNat := by
  have hposition : position.toNat < 32 := by simpa [UInt32.lt_iff_toNat_lt] using h
  have hone : (1 <<< position : UInt32).toNat = 2 ^ position.toNat := by
    rw [UInt32.toNat_shiftLeft, Nat.mod_eq_of_lt hposition, UInt32.toNat_one, Nat.shiftLeft_eq,
      Nat.one_mul]
    exact Nat.mod_eq_of_lt (Nat.pow_lt_pow_right (by decide) hposition)
  have hand : (word &&& 1 <<< position).toNat =
      (word.toNat.testBit position.toNat).toNat * 2 ^ position.toNat := by
    rw [UInt32.toNat_and, hone, Nat.and_two_pow]
  unfold bit
  rw [Bool.eq_iff_iff, bne_iff_ne, ne_eq, ← UInt32.toNat_inj, hand]
  cases word.toNat.testBit position.toNat <;> simp

/-- A mask of low bits leaves something exactly if one of them is set. -/
theorem and_lowMask_ne_zero {word mask : UInt32} {width : Nat} (hmask : mask.toNat = 2 ^ width - 1) :
    (word &&& mask != 0) = true ↔ ∃ i < width, word.toNat.testBit i = true := by
  have hand : (word &&& mask).toNat = word.toNat % 2 ^ width := by
    rw [UInt32.toNat_and, hmask, Nat.and_two_pow_sub_one_eq_mod]
  rw [bne_iff_ne, ne_eq, ← UInt32.toNat_inj, hand, UInt32.toNat_zero]
  constructor
  · intro hsome
    obtain ⟨i, hbit⟩ := Nat.exists_testBit_of_ne_zero hsome
    rw [Nat.testBit_mod_two_pow, Bool.and_eq_true, decide_eq_true_iff] at hbit
    exact ⟨i, hbit⟩
  · rintro ⟨i, hwidth, hbit⟩ hnone
    have hmod := Nat.testBit_mod_two_pow word.toNat width i
    rw [hnone, Nat.zero_testBit, hbit, decide_eq_true hwidth] at hmod
    cases hmod

/-- A mask of all but the low twelve bits clears these. -/
theorem toNat_and_highMask (word : UInt32) :
    (word &&& 0xFFFFF000).toNat = word.toNat / 2 ^ 12 * 2 ^ 12 := by
  have hmask : (0xFFFFF000 : UInt32).toNat = (2 ^ 20 - 1) * 2 ^ 12 := by decide
  rw [UInt32.toNat_and, hmask]
  apply Nat.eq_of_testBit_eq
  intro i
  rw [Nat.testBit_and, Nat.testBit_mul_two_pow, Nat.testBit_mul_two_pow,
    Nat.testBit_two_pow_sub_one, Nat.testBit_div_two_pow]
  by_cases hlow : 12 ≤ i
  · rw [Nat.sub_add_cancel hlow]
    by_cases hword : i < 32
    · simp [hlow, show i - 12 < 20 by omega]
    · -- A word has no bit up there.
      have hnone : word.toNat.testBit i = false := Nat.testBit_lt_two_pow
        (Nat.lt_of_lt_of_le word.toNat_lt (Nat.pow_le_pow_right (by decide) (by omega)))
      simp [hnone]
  · simp [hlow]

theorem wideNumber_ne_zero {high low : UInt32} :
    (low &&& 0xFFFFF000 != 0 || high &&& 0xFFFFF != 0) = true ↔ wideNumber high low ≠ 0 := by
  have hhigh : (high &&& 0xFFFFF).toNat = high.toNat % 2 ^ 20 := by
    rw [UInt32.toNat_and]
    exact Nat.and_two_pow_sub_one_eq_mod _ 20
  rw [Bool.or_eq_true, bne_iff_ne, bne_iff_ne, ne_eq, ne_eq, ← UInt32.toNat_inj,
    ← UInt32.toNat_inj, toNat_and_highMask, hhigh, UInt32.toNat_zero]
  unfold wideNumber
  omega

variable {r : Registers}

theorem isIntel_iff : r.isIntel = true ↔ r.vendorName = intelName := by
  have hname : intelName =
      wordBytes 0x756e6547 ++ wordBytes 0x49656e69 ++ wordBytes 0x6c65746e := by decide
  unfold isIntel vendorName
  rw [hname]
  constructor
  · intro h
    simp only [Bool.and_eq_true, beq_iff_eq] at h
    obtain ⟨⟨hebx, hedx⟩, hecx⟩ := h
    rw [hebx, hedx, hecx]
  · intro h
    -- Each word has four letters, so equal names have equal words.
    have hlength (v w : UInt32) : (wordBytes v).length = (wordBytes w).length :=
      (length_wordBytes v).trans (length_wordBytes w).symm
    obtain ⟨hfront, hecx⟩ := List.append_inj' h (hlength _ _)
    obtain ⟨hebx, hedx⟩ := List.append_inj' hfront (hlength _ _)
    rw [wordBytes_inj] at hebx hedx hecx
    simp only [hebx, hedx, hecx, beq_self_eq_true, Bool.and_self]

theorem hasEnclaveFeature_iff : r.hasEnclaveFeature = true ↔ r.ebx.toNat.testBit 2 = true := by
  unfold hasEnclaveFeature
  rw [bit_eq_testBit _ (by decide)]
  rfl

theorem hasInstructions_iff :
    r.hasInstructions = true ↔ ∃ i < 2, r.eax.toNat.testBit i = true :=
  and_lowMask_ne_zero (by decide)

theorem hasEnclaveSize_iff :
    r.hasEnclaveSize = true ↔ ∃ i < 16, r.edx.toNat.testBit i = true :=
  and_lowMask_ne_zero (by decide)

theorem isValidSection_iff : r.isValidSection = true ↔ r.Described := by
  unfold isValidSection
  rw [bit_eq_testBit _ (by decide)]
  rfl

theorem hasBase_iff : r.hasBase = true ↔ r.sectionBase ≠ 0 := wideNumber_ne_zero

theorem hasSize_iff : r.hasSize = true ↔ r.sectionSize ≠ 0 := wideNumber_ne_zero

theorem hasMemory_iff : r.hasMemory = true ↔ r.sectionBase ≠ 0 ∧ r.sectionSize ≠ 0 := by
  unfold hasMemory
  rw [Bool.and_eq_true, hasBase_iff, hasSize_iff]

theorem isEmptySection_iff : r.IsEmptySection ↔ r.Blank := by
  unfold IsEmptySection Blank
  rw [isValidSection_iff, ← Bool.not_eq_true, hasMemory_iff, not_and_or, ne_eq, ne_eq, not_not,
    not_not]

end Registers

/-! ## Processors -/

/-- The answers of a processor by leaf and sub-leaf. -/
abbrev Answers := UInt32 → UInt32 → Registers

namespace Answers

/-- The exchange that a query comes to. -/
def exchange (answers : Answers) (query : UInt32 × UInt32) : Exchange :=
  .query query.1 query.2 (answers query.1 query.2)

/-- The vendor's processors have enclaves, and so has this one. -/
def Supports (answers : Answers) : Prop :=
  (answers vendorLeaf 0).vendorName = Registers.intelName ∧
    (answers featureLeaf 0).ebx.toNat.testBit 2 = true

/-- There are enclave instructions, and an enclave may have a size. -/
def Permits (answers : Answers) : Prop :=
  (∃ i < 2, (answers enclaveLeaf 0).eax.toNat.testBit i = true) ∧
    ∃ i < 16, (answers enclaveLeaf 0).edx.toNat.testBit i = true

/-- The sub-leaf about the section of this number. It is numbered by a word itself. -/
def memorySubleaf (number : Nat) : UInt32 := firstMemorySubleaf + UInt32.ofNat number

/-- What is said about the section of this number. -/
def memorySection (answers : Answers) (number : Nat) : Registers :=
  answers enclaveLeaf (memorySubleaf number)

/-- Among the first `limit` sections, one has memory, and those before it are blank. -/
def HasMemory (answers : Answers) (limit : Nat) : Prop :=
  ∃ number < limit, (answers.memorySection number).Backed ∧
    ∀ earlier < number, (answers.memorySection earlier).Blank

/-- The queries about the first sections. -/
def memoryQueries (count : Nat) : List (UInt32 × UInt32) :=
  (List.range count).map fun number => (enclaveLeaf, memorySubleaf number)

/-- The queries of a search among the first `limit` sections. The first section that is not
blank decides. -/
inductive Swept (answers : Answers) (limit : Nat) : List (UInt32 × UInt32) → Prop
  | decided {number} : number < limit → ¬ (answers.memorySection number).Blank →
      (∀ earlier < number, (answers.memorySection earlier).Blank) →
      Swept answers limit (memoryQueries (number + 1))
  | undecided : (∀ number < limit, (answers.memorySection number).Blank) →
      Swept answers limit (memoryQueries limit)

/-- The queries of an examination that looks at no more than `limit` sections. -/
inductive Asked (answers : Answers) (limit : Nat) : List (UInt32 × UInt32) → Prop
  | foreign : (answers vendorLeaf 0).vendorName ≠ Registers.intelName →
      Asked answers limit [(vendorLeaf, 0)]
  | featureless : (answers vendorLeaf 0).vendorName = Registers.intelName →
      ¬ answers.Supports → Asked answers limit [(vendorLeaf, 0), (featureLeaf, 0)]
  | barred : answers.Supports → ¬ answers.Permits →
      Asked answers limit [(vendorLeaf, 0), (featureLeaf, 0), (enclaveLeaf, 0)]
  | searched {search} : answers.Supports → answers.Permits → answers.Swept limit search →
      Asked answers limit ((vendorLeaf, 0) :: (featureLeaf, 0) :: (enclaveLeaf, 0) :: search)

variable {answers : Answers}

/-- The first section that is not blank tells whether there is memory. -/
theorem hasMemory_iff_described {limit number : Nat} (within : number < limit)
    (decides : ¬ (answers.memorySection number).Blank)
    (blank : ∀ earlier < number, (answers.memorySection earlier).Blank) :
    answers.HasMemory limit ↔ (answers.memorySection number).Described := by
  constructor
  · rintro ⟨other, -, hbacked, hblank⟩
    -- Both are the first section that is not blank.
    have hother := (Registers.backed_iff.1 hbacked).2
    rcases Nat.lt_trichotomy other number with hlt | rfl | hgt
    · exact absurd (blank other hlt) hother
    · exact hbacked.1
    · exact absurd (hblank number hgt) decides
  · intro hdescribed
    exact ⟨number, within, Registers.backed_iff.2 ⟨hdescribed, decides⟩, blank⟩

theorem not_hasMemory_of_blank {limit : Nat}
    (blank : ∀ number < limit, (answers.memorySection number).Blank) :
    ¬ answers.HasMemory limit := by
  rintro ⟨number, hwithin, hbacked, -⟩
  exact (Registers.backed_iff.1 hbacked).2 (blank number hwithin)

end Answers

namespace Exchange

variable {answers : Answers} {leaf subleaf : UInt32} {registers : Registers}
  {trace rest : List Exchange}

theorem AnsweredBy.head (h : AnsweredBy answers (.query leaf subleaf registers :: rest)) :
    registers = answers leaf subleaf :=
  h _ _ _ List.mem_cons_self

theorem AnsweredBy.tail {exchange : Exchange} (h : AnsweredBy answers (exchange :: rest)) :
    AnsweredBy answers rest :=
  fun _ _ _ member => h _ _ _ (List.mem_cons_of_mem _ member)

end Exchange

namespace Support

variable {answers : Answers} {cap : UInt32} {trace : List Exchange}

/-- The answers of a sweep are what is said about the sections in turn. -/
theorem getElem_of_sweep {sections : List Registers}
    (answered : AnsweredBy answers (sweep firstMemorySubleaf sections)) {number : Nat}
    (h : number < sections.length) : sections[number] = answers.memorySection number :=
  answered _ _ _ (List.mem_mapIdx.2 ⟨number, h, rfl⟩)

theorem sweep_eq_memoryQueries {sections : List Registers}
    (answered : AnsweredBy answers (sweep firstMemorySubleaf sections)) :
    sweep firstMemorySubleaf sections =
      (Answers.memoryQueries sections.length).map answers.exchange := by
  apply List.ext_getElem
  · simp [sweep, Answers.memoryQueries]
  · intro number hleft hright
    have hnumber : number < sections.length := by simpa [sweep] using hleft
    simp [sweep, Answers.memoryQueries, Answers.exchange, getElem_of_sweep answered hnumber,
      Answers.memorySection, Answers.memorySubleaf]

/-- A sweep that ends with a query about one more section. -/
theorem swept_to {passed : List Registers} {registers : Registers} {event : Event}
    (answered : AnsweredBy answers (sweep firstMemorySubleaf passed ++
      [.query enclaveLeaf (firstMemorySubleaf + UInt32.ofNat passed.length) registers,
        .event event])) :
    registers = answers.memorySection passed.length ∧
      calls (sweep firstMemorySubleaf passed ++
        [.query enclaveLeaf (firstMemorySubleaf + UInt32.ofNat passed.length) registers,
          .event event]) =
        (Answers.memoryQueries (passed.length + 1)).map answers.exchange := by
  have hlast : sweep firstMemorySubleaf (passed ++ [registers]) =
      sweep firstMemorySubleaf passed ++
        [.query enclaveLeaf (firstMemorySubleaf + UInt32.ofNat passed.length) registers] := by
    rw [sweep_append]
    simp [sweep]
  have hanswered : AnsweredBy answers (sweep firstMemorySubleaf (passed ++ [registers])) := by
    intro leaf subleaf given member
    rw [hlast] at member
    refine answered _ _ _ (List.mem_append.2 ((List.mem_append.1 member).imp_right fun hquery => ?_))
    rw [List.mem_singleton.1 hquery]
    exact List.mem_cons_self
  have hqueries := sweep_eq_memoryQueries hanswered
  rw [hlast, List.length_append, List.length_singleton] at hqueries
  refine ⟨answered _ _ _ (List.mem_append_right _ List.mem_cons_self), ?_⟩
  rw [calls_append, calls_sweep, calls_query, calls_event, calls_nil]
  exact hqueries

/-- A search finds whether there is memory, and makes the queries that tell. -/
theorem Searched.told {limit : Nat} {found : Bool}
    (h : Searched cap limit firstMemorySubleaf trace found)
    (answered : AnsweredBy answers trace) :
    (found = true ↔ answers.HasMemory limit) ∧
      ∃ asked, answers.Swept limit asked ∧ calls trace = asked.map answers.exchange := by
  obtain ⟨passed, remaining, ending, hpassed, rfl, hending, rfl⟩ := h
  have hswept : AnsweredBy answers (sweep firstMemorySubleaf passed) :=
    fun _ _ _ member => answered _ _ _ (List.mem_append_left _ member)
  have hblank : ∀ number < passed.length, (answers.memorySection number).Blank := by
    intro number hnumber
    rw [← getElem_of_sweep hswept hnumber]
    exact Registers.isEmptySection_iff.1 (hpassed _ (List.getElem_mem hnumber))
  cases hending with
  | capped =>
    refine ⟨iff_of_false (by simp) (Answers.not_hasMemory_of_blank hblank), _,
      .undecided hblank, ?_⟩
    rw [calls_append, calls_sweep, calls_event, calls_nil, List.append_nil]
    exact sweep_eq_memoryQueries hswept
  | @invalid remaining _ registers hinvalid =>
    obtain ⟨rfl, hcalls⟩ := swept_to answered
    have hdescribed : ¬ (answers.memorySection passed.length).Described := by
      rw [← Registers.isValidSection_iff, hinvalid]
      simp
    have hdecides : ¬ (answers.memorySection passed.length).Blank := fun h => hdescribed h.1
    have hwithin : passed.length < passed.length + (remaining + 1) := by omega
    refine ⟨iff_of_false (by simp) ?_, _, .decided hwithin hdecides hblank, hcalls⟩
    rwa [Answers.hasMemory_iff_described hwithin hdecides hblank]
  | @found remaining _ registers hvalid hmemory =>
    obtain ⟨rfl, hcalls⟩ := swept_to answered
    have hdescribed := Registers.isValidSection_iff.1 hvalid
    have hdecides : ¬ (answers.memorySection passed.length).Blank :=
      (Registers.backed_iff.1 ⟨hdescribed, Registers.hasMemory_iff.1 hmemory⟩).2
    have hwithin : passed.length < passed.length + (remaining + 1) := by omega
    refine ⟨iff_of_true rfl ?_, _, .decided hwithin hdecides hblank, hcalls⟩
    rwa [Answers.hasMemory_iff_described hwithin hdecides hblank]

/-- Of a processor with enclaves it is found out whether they are permitted and there is
memory for them. -/
theorem ActivityExamined.told {active : Bool} (h : ActivityExamined cap trace active)
    (answered : AnsweredBy answers trace) :
    (active = true ↔ answers.Permits ∧ answers.HasMemory cap.toNat) ∧
      ∃ search, calls trace = ((enclaveLeaf, 0) :: search).map answers.exchange ∧
        (¬ answers.Permits ∧ search = [] ∨
          answers.Permits ∧ answers.Swept cap.toNat search) := by
  cases h with
  | instructionless hinstructions =>
    obtain rfl := answered.head
    have hbarred : ¬ answers.Permits := by
      rintro ⟨hbits, -⟩
      rw [← Registers.hasInstructions_iff, hinstructions] at hbits
      cases hbits
    exact ⟨iff_of_false (by simp) fun h => hbarred h.1, [], rfl, .inl ⟨hbarred, rfl⟩⟩
  | sizeless hinstructions hsize =>
    obtain rfl := answered.head
    have hbarred : ¬ answers.Permits := by
      rintro ⟨-, hbits⟩
      rw [← Registers.hasEnclaveSize_iff, hsize] at hbits
      cases hbits
    exact ⟨iff_of_false (by simp) fun h => hbarred h.1, [], rfl, .inl ⟨hbarred, rfl⟩⟩
  | searched hinstructions hsize hsearch =>
    obtain rfl := answered.head
    have hpermits : answers.Permits :=
      ⟨Registers.hasInstructions_iff.1 hinstructions, Registers.hasEnclaveSize_iff.1 hsize⟩
    obtain ⟨hfound, asked, hswept, hcalls⟩ := hsearch.told answered.tail
    refine ⟨hfound.trans (and_iff_right hpermits).symm, asked, ?_, .inr ⟨hpermits, hswept⟩⟩
    rw [calls_query, hcalls]
    rfl

/-- An examination finds what the architecture says of the answers, and makes the queries that
tell. -/
theorem Examined.told {support : Support} (h : Examined cap trace support)
    (answered : AnsweredBy answers trace) :
    (support.supported = true ↔ answers.Supports) ∧
      (support.active = true ↔
        answers.Supports ∧ answers.Permits ∧ answers.HasMemory cap.toNat) ∧
      ∃ asked, answers.Asked cap.toNat asked ∧ calls trace = asked.map answers.exchange := by
  cases h with
  | @foreign vendor hvendor =>
    obtain rfl := answered.head
    have hforeign : (answers vendorLeaf 0).vendorName ≠ Registers.intelName := by
      rw [ne_eq, ← Registers.isIntel_iff, hvendor]
      simp
    have hnone : ¬ answers.Supports := fun h => hforeign h.1
    exact ⟨iff_of_false (by simp [none]) hnone, iff_of_false (by simp [none]) fun h => hnone h.1,
      _, .foreign hforeign, rfl⟩
  | @featureless vendor features hvendor hfeature =>
    obtain rfl := answered.head
    obtain rfl := answered.tail.head
    have hnone : ¬ answers.Supports := by
      rintro ⟨-, hbit⟩
      rw [← Registers.hasEnclaveFeature_iff, hfeature] at hbit
      cases hbit
    exact ⟨iff_of_false (by simp [none]) hnone, iff_of_false (by simp [none]) fun h => hnone h.1,
      _, .featureless (Registers.isIntel_iff.1 hvendor) hnone, rfl⟩
  | @supported vendor features activity active hvendor hfeature hactivity =>
    obtain rfl := answered.head
    obtain rfl := answered.tail.head
    have hsupports : answers.Supports :=
      ⟨Registers.isIntel_iff.1 hvendor, Registers.hasEnclaveFeature_iff.1 hfeature⟩
    have hanswered := answered.tail.tail
    obtain ⟨hactive, search, hcalls, hsearch⟩ := hactivity.told answered.tail.tail
    refine ⟨iff_of_true rfl hsupports, hactive.trans (and_iff_right hsupports).symm,
      (vendorLeaf, 0) :: (featureLeaf, 0) :: (enclaveLeaf, 0) :: search, ?_, ?_⟩
    · rcases hsearch with ⟨hbarred, rfl⟩ | ⟨hpermits, hswept⟩
      · exact .barred hsupports hbarred
      · exact .searched hsupports hpermits hswept
    · rw [calls_query, calls_query, hcalls]
      rfl

/-- On a processor that answers by leaf and sub-leaf, an examination finds support exactly if
the architecture has it so, finds activity exactly if enclaves are permitted as well and there
is memory for them among the sections up to the cap, and makes just the queries that it takes
to tell. -/
theorem examine_eq_architecture (machine : Machine κ σ) {answers : Answers}
    (answering : ∀ leaf subleaf state,
      (machine.processor.query leaf subleaf state).1 = answers leaf subleaf)
    (cap : UInt32) (state : Machine.State κ σ) :
    let execution := (examine cap).run machine state
    (execution.result.supported = true ↔ answers.Supports) ∧
    (execution.result.active = true ↔
      answers.Supports ∧ answers.Permits ∧ ∃ number < cap.toNat,
        (answers.memorySection number).Backed ∧
        ∀ earlier < number, (answers.memorySection earlier).Blank) ∧
    ∃ asked, answers.Asked cap.toNat asked ∧
      calls execution.trace = asked.map fun (leaf, subleaf) =>
        .query leaf subleaf (answers leaf subleaf) := by
  intro execution
  obtain ⟨trace, hyields, hfollows, hcalls⟩ := (examine cap).exists_yields_follows machine state
  have fixed : machine.processor.Fixed := fun leaf subleaf before after =>
    (answering leaf subleaf before).trans (answering leaf subleaf after).symm
  have hanswers : (fun leaf subleaf => (machine.processor.query leaf subleaf state.processor).1) =
      answers := by
    funext leaf subleaf
    exact answering leaf subleaf state.processor
  have hanswered : AnsweredBy answers trace := hanswers ▸ hfollows.answered fixed state.processor
  obtain ⟨hsupported, hactive, asked, hasked, hqueries⟩ := (yields_examine hyields).told hanswered
  exact ⟨hsupported, hactive, asked, hasked, hcalls.symm.trans hqueries⟩

/-- An active processor whose memory is in its second section. -/
def roomy : Scripted.ProcessorScript where
  before := Table.ofList
    [((0, 0), ⟨22, 0x756e6547, 0x6c65746e, 0x49656e69⟩), ((7, 0), ⟨0, 4, 0, 0⟩),
      ((0x12, 0), ⟨1, 0, 0, 0x241f⟩), ((0x12, 2), ⟨1, 0, 0x1000, 0⟩),
      ((0x12, 3), ⟨0x70200001, 0, 0x05d80001, 0⟩)]

/-- Its memory is found behind the blank section, by five queries. -/
theorem examine_eq_architecture_roomy :
    let answers : Answers := fun leaf subleaf => (roomy.processor.query leaf subleaf 0).1
    (∀ leaf subleaf count, (roomy.processor.query leaf subleaf count).1 = answers leaf subleaf) ∧
    (answers.Supports ∧ answers.Permits ∧ ∃ number < 64,
      (answers.memorySection number).Backed ∧
      ∀ earlier < number, (answers.memorySection earlier).Blank) ∧
    ∃ asked, answers.Asked 64 asked ∧ asked.length = 5 := by
  intro answers
  let machine : Machine Nat Scripted.Entries := ⟨roomy.processor, Scripted.store⟩
  have answering : ∀ leaf subleaf count,
      (roomy.processor.query leaf subleaf count).1 = answers leaf subleaf := fun _ _ _ => rfl
  obtain ⟨-, hactive, asked, hasked, hcalls⟩ :=
    examine_eq_architecture machine answering 64 ⟨0, {}⟩
  have hfound : ((examine 64).run machine ⟨0, {}⟩).result.active = true := by decide +kernel
  have hcount : (calls ((examine 64).run machine ⟨0, {}⟩).trace).length = 5 := by decide +kernel
  rw [hcalls, List.length_map] at hcount
  exact ⟨answering, hactive.1 hfound, asked, hasked, hcount⟩

end Support

end SgxActivation
