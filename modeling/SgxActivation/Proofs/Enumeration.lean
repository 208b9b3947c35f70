import SgxActivation.Proofs.Examination

/-!
# The search for memory along its trace

What an examination makes of the answers of a processor, and what it then asks for,
whatever processor gives them. `Support.asks_examine` says that it makes no call but
queries; here is which ones.

* **`Support.Searched`** — a search passes empty sections, one sub-leaf after the other,
  until it **ends**: at its cap, at a sub-leaf that describes no section, or at memory;
* **`Support.Examined`** — an examination stops at the first thing that is missing, and
  comes to a search where nothing is;
* `yields_searchMemory`, `yields_examine` — neither ever does anything else.
-/

namespace SgxActivation

open Cpuid Exchange

/-- A section without memory. The search goes on past it. -/
def Registers.IsEmptySection (r : Registers) : Prop :=
  r.isValidSection = true ∧ r.hasMemory = false

namespace Support

/-! ## Consecutive sub-leaves -/

/-- The queries of consecutive sub-leaves of the enclave leaf, from `first` on, with their
answers. -/
def sweep (first : UInt32) (sections : List Registers) : List Exchange :=
  sections.mapIdx fun i registers => .query enclaveLeaf (first + UInt32.ofNat i) registers

/-- Sub-leaves are numbered by words, and the number may wrap around. -/
theorem add_ofNat_succ (first : UInt32) (i : Nat) :
    first + UInt32.ofNat (i + 1) = first + 1 + UInt32.ofNat i := by
  rw [UInt32.ofNat_add, UInt32.add_comm (UInt32.ofNat i), UInt32.add_assoc]
  rfl

theorem sweep_cons (first : UInt32) (registers : Registers) (rest : List Registers) :
    sweep first (registers :: rest) =
      .query enclaveLeaf first registers :: sweep (first + 1) rest := by
  simp only [sweep, List.mapIdx_cons, add_ofNat_succ]
  simp

theorem sweep_append (first : UInt32) (sections others : List Registers) :
    sweep first (sections ++ others) =
      sweep first sections ++ sweep (first + UInt32.ofNat sections.length) others := by
  induction sections generalizing first with
  | nil => simp [sweep]
  | cons registers rest ih =>
    rw [List.cons_append, sweep_cons, sweep_cons, ih, List.length_cons, add_ofNat_succ]
    rfl

@[simp]
theorem calls_sweep (first : UInt32) (sections : List Registers) :
    calls (sweep first sections) = sweep first sections := by
  induction sections generalizing first with
  | nil => rfl
  | cons registers rest ih => rw [sweep_cons, calls_query, ih]

/-! ## Searches -/

/-- The end of a search that may still look at `remaining` sub-leaves, of which `subleaf`
is the next. -/
inductive Ending (cap : UInt32) : (remaining : Nat) → (subleaf : UInt32) →
    List Exchange → Bool → Prop
  | capped {subleaf} : Ending cap 0 subleaf [.event (.enumerationCapped cap)] false
  | invalid {remaining subleaf registers} : registers.isValidSection = false →
      Ending cap (remaining + 1) subleaf
        [.query enclaveLeaf subleaf registers, .event (.memoryEnded subleaf)] false
  | found {remaining subleaf registers} : registers.isValidSection = true →
      registers.hasMemory = true →
      Ending cap (remaining + 1) subleaf
        [.query enclaveLeaf subleaf registers, .event (.memoryFound subleaf)] true

/-- A search among `limit` sub-leaves from `first` on: what it passes, and how it ends. -/
def Searched (cap : UInt32) (limit : Nat) (first : UInt32) (trace : List Exchange)
    (found : Bool) : Prop :=
  ∃ passed remaining ending, (∀ registers ∈ passed, registers.IsEmptySection) ∧
    limit = passed.length + remaining ∧
    Ending cap remaining (first + UInt32.ofNat passed.length) ending found ∧
    trace = sweep first passed ++ ending

variable {cap : UInt32}

/-- A search that ends at once has passed nothing. -/
theorem Ending.searched {remaining : Nat} {first : UInt32} {ending : List Exchange} {found : Bool}
    (h : Ending cap remaining first ending found) : Searched cap remaining first ending found :=
  ⟨[], remaining, ending, by simp, by simp, by simpa using h, rfl⟩

theorem Searched.cons {limit : Nat} {first : UInt32} {registers : Registers}
    {trace : List Exchange} {found : Bool} (empty : registers.IsEmptySection)
    (h : Searched cap limit (first + 1) trace found) :
    Searched cap (limit + 1) first (.query enclaveLeaf first registers :: trace) found := by
  obtain ⟨passed, remaining, ending, hpassed, rfl, hending, rfl⟩ := h
  refine ⟨registers :: passed, remaining, ending, List.forall_mem_cons.2 ⟨empty, hpassed⟩, ?_, ?_,
    ?_⟩
  · rw [List.length_cons]
    omega
  · rw [List.length_cons, add_ofNat_succ]
    exact hending
  · rw [sweep_cons]
    rfl

theorem yields_searchMemory {limit : Nat} {first : UInt32} {trace : List Exchange}
    {found : Bool} (h : (searchMemory cap limit first).Yields trace found) :
    Searched cap limit first trace found := by
  induction limit generalizing first trace with
  | zero =>
    cases h with
    | note h =>
      cases h
      exact Ending.capped.searched
  | succ limit ih =>
    cases h with
    | @query _ _ _ registers trace _ h =>
      simp only [Program.andThen] at h
      cases hvalid : registers.isValidSection with
      | false =>
        rw [if_pos (by simp [hvalid])] at h
        cases h with
        | note h =>
          cases h
          exact (Ending.invalid hvalid).searched
      | true =>
        rw [if_neg (by simp [hvalid])] at h
        cases hmemory : registers.hasMemory with
        | false =>
          rw [if_neg (by simp [hmemory])] at h
          exact (ih h).cons ⟨hvalid, hmemory⟩
        | true =>
          rw [if_pos hmemory] at h
          cases h with
          | note h =>
            cases h
            exact (Ending.found hvalid hmemory).searched

/-! ## Examinations -/

/-- What is found out about a processor that has enclaves. -/
inductive ActivityExamined (cap : UInt32) : List Exchange → Bool → Prop
  | instructionless {registers} : registers.hasInstructions = false →
      ActivityExamined cap [.query enclaveLeaf 0 registers, .event .noInstructions] false
  | sizeless {registers} : registers.hasInstructions = true → registers.hasEnclaveSize = false →
      ActivityExamined cap [.query enclaveLeaf 0 registers, .event .noEnclaveSize] false
  | searched {registers search found} : registers.hasInstructions = true →
      registers.hasEnclaveSize = true →
      Searched cap cap.toNat firstMemorySubleaf search found →
      ActivityExamined cap (.query enclaveLeaf 0 registers :: search) found

/-- What an examination finds, and the queries and events on its way. -/
inductive Examined (cap : UInt32) : List Exchange → Support → Prop
  | foreign {vendor} : vendor.isIntel = false →
      Examined cap [.query vendorLeaf 0 vendor, .event .unsupportedProcessor] none
  | featureless {vendor features} : vendor.isIntel = true → features.hasEnclaveFeature = false →
      Examined cap
        [.query vendorLeaf 0 vendor, .query featureLeaf 0 features, .event .unsupportedProcessor]
        none
  | supported {vendor features activity active} : vendor.isIntel = true →
      features.hasEnclaveFeature = true → ActivityExamined cap activity active →
      Examined cap (.query vendorLeaf 0 vendor :: .query featureLeaf 0 features :: activity)
        ⟨true, active⟩

theorem yields_examineActivity {trace : List Exchange} {active : Bool}
    (h : (examineActivity cap).Yields trace active) : ActivityExamined cap trace active := by
  cases h with
  | @query _ _ _ registers trace _ h =>
    simp only [Program.andThen] at h
    cases hinstructions : registers.hasInstructions with
    | false =>
      rw [if_pos (by simp [hinstructions])] at h
      cases h with
      | note h =>
        cases h
        exact .instructionless hinstructions
    | true =>
      rw [if_neg (by simp [hinstructions])] at h
      cases hsize : registers.hasEnclaveSize with
      | false =>
        rw [if_pos (by simp [hsize])] at h
        cases h with
        | note h =>
          cases h
          exact .sizeless hinstructions hsize
      | true =>
        rw [if_neg (by simp [hsize])] at h
        exact .searched hinstructions hsize (yields_searchMemory h)

theorem yields_examineFeature {trace : List Exchange} {supported : Bool}
    (h : examineFeature.Yields trace supported) :
    (∃ vendor, vendor.isIntel = false ∧ supported = false ∧ trace = [.query vendorLeaf 0 vendor]) ∨
      ∃ vendor features, vendor.isIntel = true ∧ supported = features.hasEnclaveFeature ∧
        trace = [.query vendorLeaf 0 vendor, .query featureLeaf 0 features] := by
  cases h with
  | @query _ _ _ vendor trace _ h =>
    simp only [Program.andThen] at h
    cases hvendor : vendor.isIntel with
    | false =>
      rw [if_neg (by simp [hvendor])] at h
      cases h
      exact .inl ⟨vendor, hvendor, rfl, rfl⟩
    | true =>
      rw [if_pos hvendor] at h
      cases h with
      | @query _ _ _ features trace _ h =>
        cases h
        exact .inr ⟨vendor, features, hvendor, rfl, rfl⟩

theorem yields_examine {trace : List Exchange} {support : Support}
    (h : (examine cap).Yields trace support) : Examined cap trace support := by
  unfold examine at h
  obtain ⟨first, supported, rest, hfirst, hrest, rfl⟩ := h.split
  rcases yields_examineFeature hfirst with
    ⟨vendor, hvendor, rfl, rfl⟩ | ⟨vendor, features, hvendor, hfeatures, rfl⟩
  · cases hrest with
    | note hrest =>
      cases hrest
      exact .foreign hvendor
  · cases supported with
    | false =>
      cases hrest with
      | note hrest =>
        cases hrest
        exact .featureless hvendor hfeatures.symm
    | true =>
      obtain ⟨activity, active, last, hactivity, hlast, rfl⟩ := hrest.split
      cases hlast
      rw [List.append_nil]
      exact .supported hvendor hfeatures.symm (yields_examineActivity hactivity)

/-- What a run of an examination leaves behind. -/
theorem examined_run {κ σ : Type} (cap : UInt32) (machine : Machine κ σ)
    (state : Machine.State κ σ) :
    Examined cap ((examine cap).run machine state).trace ((examine cap).run machine state).result :=
  yields_examine (Program.run_yields (asks_examine cap) machine state)

/-- Only a processor that has enclaves is found active. -/
theorem Examined.supported_of_active {trace : List Exchange} {support : Support}
    (h : Examined cap trace support) (active : support.active = true) :
    support.supported = true := by
  cases h with
  | foreign | featureless => cases active
  | supported => rfl

end Support

end SgxActivation
