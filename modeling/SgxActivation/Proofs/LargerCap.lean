import SgxActivation.Proofs.Enumeration
import SgxActivation.Scripted.Processor
import SgxActivation.Scripted.Store

/-!
# Examinations under a larger cap

What becomes of an examination of the processor when more sub-leaves may be searched.

* **`Program.CutShort`** — a program that stops at its cap where another one goes on, and
  is the same as the other everywhere else; this is said of the programs alone, for all
  machines at once (`CutShort.run`);
* `cutShort_searchMemory`, `cutShort_examine` — a search, and so an examination, is one
  under any larger cap, cut short;
* `examine_of_larger_cap` — so a larger cap changes nothing, or it lets a search go on that
  had found nothing yet.
-/

namespace SgxActivation

variable {α β κ σ : Type}

open Cpuid Exchange

/-! ## Programs cut short -/

/-- The first program is the second one, except that it notes the cap and stops with
`inactive` in places where the second one goes on to ask. -/
inductive Program.CutShort (cap : UInt32) (inactive : α) : Program α → Program α → Prop
  | done (result : α) : CutShort cap inactive (.done result) (.done result)
  | query {leaf subleaf next further} :
      (∀ registers, CutShort cap inactive (next registers) (further registers)) →
      CutShort cap inactive (.ask (.query leaf subleaf) next) (.ask (.query leaf subleaf) further)
  | note {event next further} : event ≠ .enumerationCapped cap →
      CutShort cap inactive next further →
      CutShort cap inactive (.note event next) (.note event further)
  | capped {leaf subleaf further} :
      CutShort cap inactive (.note (.enumerationCapped cap) (.done inactive))
        (.ask (.query leaf subleaf) further)

namespace Program

variable {cap : UInt32} {inactive : α} {short long : Program α}

theorem CutShort.map (h : CutShort cap inactive short long) (f : α → β) :
    CutShort cap (f inactive) (short.andThen fun a => .done (f a))
      (long.andThen fun a => .done (f a)) := by
  induction h with
  | done result => exact .done _
  | query _ ih => exact .query ih
  | note hother _ ih => exact .note hother ih
  | capped => exact .capped

/-- Run from the same state, the two programs leave the same behind, or the first one stops
at its cap after the same calls, of which the second one makes more. -/
theorem CutShort.run (h : CutShort cap inactive short long) (machine : Machine κ σ)
    (state : Machine.State κ σ) :
    let stopped := short.run machine state
    let gone := long.run machine state
    .event (.enumerationCapped cap) ∉ stopped.trace ∧ gone = stopped ∨
      .event (.enumerationCapped cap) ∈ stopped.trace ∧ stopped.result = inactive ∧
        ∃ rest, rest ≠ [] ∧ calls gone.trace = calls stopped.trace ++ rest := by
  induction h generalizing state with
  | done result => exact .inl ⟨by simp, rfl⟩
  | @query leaf subleaf next further _ ih =>
    simp only [run_ask]
    -- A query goes to the processor, so that the store notes nothing in between.
    rcases ih (machine.reply state (.query leaf subleaf)).answer
        (machine.reply state (.query leaf subleaf)).state with
      ⟨huncapped, hsame⟩ | ⟨hcapped, hresult, rest, hmore, hcalls⟩
    · left
      rw [hsame]
      refine ⟨fun member => ?_, rfl⟩
      rcases List.mem_cons.1 member with heq | hlater
      · cases heq
      · exact huncapped hlater
    · refine .inr ⟨List.mem_cons_of_mem _ hcapped, hresult, rest, hmore, ?_⟩
      exact congrArg (List.cons _) hcalls
  | @note event next further hother _ ih =>
    simp only [run_note]
    rcases ih state with ⟨huncapped, hsame⟩ | ⟨hcapped, hresult, hmore⟩
    · left
      rw [hsame]
      refine ⟨fun member => ?_, rfl⟩
      rcases List.mem_cons.1 member with heq | hlater
      · cases heq
        exact hother rfl
      · exact huncapped hlater
    · exact .inr ⟨List.mem_cons_of_mem _ hcapped, hresult, hmore⟩
  | @capped leaf subleaf further =>
    simp only [run_note, run_ask]
    exact .inr ⟨List.mem_cons_self, rfl, _, List.cons_ne_nil _ _, rfl⟩

end Program

/-! ## Examinations -/

namespace Support

open Program

variable {cap larger : UInt32}

theorem cutShort_searchMemory (limit extra : Nat) (subleaf : UInt32) :
    CutShort cap false (searchMemory cap limit subleaf)
      (searchMemory larger (limit + (extra + 1)) subleaf) := by
  induction limit generalizing subleaf with
  | zero =>
    rw [Nat.zero_add]
    exact .capped
  | succ limit ih =>
    rw [Nat.succ_add]
    refine .query fun registers => ?_
    simp only [Program.andThen]
    split
    · exact .note (by simp) (.done false)
    · split
      · exact .note (by simp) (.done true)
      · exact ih _

theorem cutShort_examineActivity (h : cap < larger) :
    CutShort cap false (examineActivity cap) (examineActivity larger) := by
  refine .query fun registers => ?_
  simp only [Program.andThen]
  split
  · exact .note (by simp) (.done false)
  · split
    · exact .note (by simp) (.done false)
    · have hcap : cap.toNat < larger.toNat := UInt32.lt_iff_toNat_lt.1 h
      obtain ⟨extra, hextra⟩ : ∃ extra, larger.toNat = cap.toNat + (extra + 1) :=
        ⟨larger.toNat - cap.toNat - 1, by omega⟩
      rw [hextra]
      exact cutShort_searchMemory _ _ _

theorem cutShort_examine (h : cap < larger) :
    CutShort cap ⟨true, false⟩ (examine cap) (examine larger) := by
  refine .query fun vendor => ?_
  simp only [Program.andThen]
  split
  · refine .query fun features => ?_
    simp only [Program.andThen, Program.pure_eq]
    split
    · exact (cutShort_examineActivity h).map fun active => Support.mk true active
    · exact .note (by simp) (.done _)
  · exact .note (by simp) (.done _)

/-- The cap has no part in what is found out about support. -/
theorem run_examine_supported (cap : UInt32) (machine : Machine κ σ)
    (state : Machine.State κ σ) :
    ((examine cap).run machine state).result.supported =
      (examineFeature.run machine state).result := by
  unfold examine
  simp only [bind_eq, run_andThen]
  cases (examineFeature.run machine state).result with
  | false => rfl
  | true =>
    simp only [↓reduceIte, run_andThen]
    rfl

/-- An examination that came to an end of the memory has found nothing, and its cap has not
been met. -/
theorem Examined.of_ended {trace : List Exchange} {support : Support} {subleaf : UInt32}
    (h : Examined cap trace support) (ended : .event (.memoryEnded subleaf) ∈ trace) :
    support.active = false ∧ .event (.enumerationCapped cap) ∉ trace := by
  cases h with
  | foreign hvendor => simp at ended
  | featureless hvendor hfeature => simp at ended
  | supported hvendor hfeature hactivity =>
    cases hactivity with
    | instructionless hinstructions => simp at ended
    | sizeless hinstructions hsize => simp at ended
    | searched hinstructions hsize hsearch =>
      obtain ⟨passed, remaining, ending, -, -, hending, rfl⟩ := hsearch
      -- What was passed left queries only, so the end of the search has noted it.
      have hqueries (event : Event) : .event event ∉ sweep firstMemorySubleaf passed := by
        simp [sweep]
      cases hending with
      | capped => simp [hqueries] at ended
      | invalid hinvalid => exact ⟨rfl, by simp [hqueries]⟩
      | found hvalid hmemory => simp [hqueries] at ended

/-- Under a larger cap, an examination that did not stop at its cap goes just the same, with
the same queries, events and support. One that did stop there was inactive, and makes the same
queries and then more. So what is active stays so, and what came to an end of the memory stays
inactive. -/
theorem examine_of_larger_cap {cap larger : UInt32} (h : cap < larger) (machine : Machine κ σ)
    (state : Machine.State κ σ) :
    let first := (examine cap).run machine state
    let second := (examine larger).run machine state
    second.result.supported = first.result.supported ∧
    (.event (.enumerationCapped cap) ∉ first.trace → second = first) ∧
    (.event (.enumerationCapped cap) ∈ first.trace → first.result.active = false ∧
      ∃ rest, rest ≠ [] ∧ calls second.trace = calls first.trace ++ rest) ∧
    (first.result.active = true → second.result.active = true) ∧
    ∀ subleaf, .event (.memoryEnded subleaf) ∈ first.trace → second.result.active = false := by
  intro first second
  have hexamined := examined_run cap machine state
  have hsupported : second.result.supported = first.result.supported :=
    (run_examine_supported larger machine state).trans
      (run_examine_supported cap machine state).symm
  rcases (cutShort_examine h).run machine state with
    ⟨huncapped, hsame⟩ | ⟨hcapped, hresult, hmore⟩
  · have heq : second = first := hsame
    rw [heq]
    exact ⟨rfl, fun _ => rfl, fun hcapped => absurd hcapped huncapped, id,
      fun subleaf ended => (hexamined.of_ended ended).1⟩
  · have hinactive : first.result.active = false := congrArg Support.active hresult
    refine ⟨hsupported, fun huncapped => absurd hcapped huncapped, fun _ => ⟨hinactive, hmore⟩,
      fun hactive => ?_, fun subleaf ended => ?_⟩
    · cases hinactive.symm.trans hactive
    · exact absurd hcapped (hexamined.of_ended ended).2

/-- A processor whose third section gets its memory only when five queries have been made. -/
def belated : Scripted.ProcessorScript where
  before := Table.ofList
    [((0, 0), ⟨22, 0x756e6547, 0x6c65746e, 0x49656e69⟩), ((7, 0), ⟨0, 4, 0, 0⟩),
      ((0x12, 0), ⟨1, 0, 0, 0x241f⟩), ((0x12, 2), ⟨1, 0, 0x1000, 0⟩), ((0x12, 3), ⟨1, 0, 0, 0⟩)]
  after := Table.ofList [((0x12, 4), ⟨0x70200001, 0, 0x05d80001, 0⟩)]
  switchAfter := some 5

/-- A search among two sections stops before it, and one among more finds it. -/
theorem examine_of_larger_cap_belated :
    let machine : Machine Nat Scripted.Entries := ⟨belated.processor, Scripted.store⟩
    let first := (examine 2).run machine ⟨0, {}⟩
    let second := (examine 64).run machine ⟨0, {}⟩
    (2 : UInt32) < 64 ∧ .event (.enumerationCapped 2) ∈ first.trace ∧
      first.result = ⟨true, false⟩ ∧ second.result = ⟨true, true⟩ ∧
      ∃ rest, rest ≠ [] ∧ calls second.trace = calls first.trace ++ rest := by
  intro machine first second
  have hlarger : (2 : UInt32) < 64 := by decide
  obtain ⟨-, huncapped, hcapped, -⟩ := examine_of_larger_cap hlarger machine ⟨0, {}⟩
  have hfirst : first.result = ⟨true, false⟩ := by decide +kernel
  have hsecond : second.result = ⟨true, true⟩ := by decide +kernel
  have hcut : .event (.enumerationCapped 2) ∈ first.trace := by
    refine Classical.byContradiction fun hnot => ?_
    have hsame : second = first := huncapped hnot
    rw [hsame, hfirst] at hsecond
    cases hsecond
  exact ⟨hlarger, hcut, hfirst, hsecond, (hcapped hcut).2⟩

end Support

end SgxActivation
