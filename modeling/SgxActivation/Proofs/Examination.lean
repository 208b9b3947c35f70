import SgxActivation.Activation
import SgxActivation.Proofs.Trace

/-!
# Examining the processor

* `Support.asks_examine` — an examination queries the processor and makes no
  other call, so that its trace holds queries only (`Program.Yields.queries`) and no
  event but its own (`Program.run_yields`);
* `Program.Yields.result_of_answered` — where its queries are answered alike, such
  a program comes to one result; on a processor whose answers are **fixed** they
  always are (`result_unique`);
* `Settings.finds_of_fixed` — so every examination there **finds** the same.
-/

namespace SgxActivation

variable {α κ σ : Type}

open Exchange

/-- Whether a call goes to the processor. -/
def Call.IsQuery : Call → Prop
  | .query .. => True
  | _ => False

/-- A program that only queries leaves only queries behind. -/
theorem Program.Yields.queries {program : Program α} {trace : List Exchange} {result : α}
    (yields : program.Yields trace result) (asks : program.Asks Call.IsQuery) :
    ∀ exchange ∈ calls trace, exchange.isQuery = true := by
  induction yields with
  | done result => simp
  | query h ih =>
    intro exchange member
    rcases List.mem_cons.1 member with rfl | member
    · rfl
    · exact ih (asks.2 _) exchange member
  | probe h ih => exact absurd asks.1 id
  | read h ih => exact absurd asks.1 id
  | write h ih => exact absurd asks.1 id
  | note h ih => exact ih asks

/-- A program that only queries has the whole trace of its run for itself: the store, which
is not called, notes nothing. -/
theorem Program.run_yields {program : Program α} (asks : program.Asks Call.IsQuery)
    (machine : Machine κ σ) (state : Machine.State κ σ) :
    program.Yields (program.run machine state).trace (program.run machine state).result := by
  refine run_yields_of_silent (asks.mono fun call hquery state => ?_) state
  cases call with
  | query leaf subleaf => rfl
  | _ => cases hquery

namespace Support

theorem asks_searchMemory (cap : UInt32) (remaining : Nat) (subleaf : UInt32) :
    (searchMemory cap remaining subleaf).Asks Call.IsQuery := by
  induction remaining generalizing subleaf with
  | zero => trivial
  | succ remaining ih =>
    refine ⟨trivial, fun registers => ?_⟩
    simp only [Program.andThen]
    split
    · trivial
    · split
      · trivial
      · exact ih _

theorem asks_examineFeature : examineFeature.Asks Call.IsQuery := by
  refine ⟨trivial, fun vendor => ?_⟩
  simp only [Program.andThen]
  split
  · exact ⟨trivial, fun features => trivial⟩
  · trivial

theorem asks_examineActivity (cap : UInt32) : (examineActivity cap).Asks Call.IsQuery := by
  refine ⟨trivial, fun registers => ?_⟩
  simp only [Program.andThen]
  split
  · trivial
  · split
    · trivial
    · exact asks_searchMemory cap _ _

/-- An examination makes no call but queries. -/
theorem asks_examine (cap : UInt32) : (examine cap).Asks Call.IsQuery := by
  refine asks_examineFeature.andThen fun supported => ?_
  split
  · exact (asks_examineActivity cap).andThen fun active => trivial
  · trivial

end Support

/-! ## Fixed processors -/

/-- The answers of a processor do not depend on its state. -/
def Processor.Fixed (processor : Processor κ) : Prop :=
  ∀ leaf subleaf before after,
    (processor.query leaf subleaf before).1 = (processor.query leaf subleaf after).1

/-- The queries of a trace are answered as `answers` says. -/
def Exchange.AnsweredBy (answers : UInt32 → UInt32 → Registers) (trace : List Exchange) : Prop :=
  ∀ leaf subleaf registers, .query leaf subleaf registers ∈ trace →
    registers = answers leaf subleaf

/-- A fixed processor answers all queries of a trace alike. -/
theorem Machine.Follows.answered {machine : Machine κ σ} {state last : Machine.State κ σ}
    {trace : List Exchange} (follows : machine.Follows state trace last)
    (fixed : machine.processor.Fixed) (any : κ) :
    AnsweredBy (fun leaf subleaf => (machine.processor.query leaf subleaf any).1) trace := by
  intro leaf subleaf registers member
  obtain ⟨before, after, -, htakes⟩ :=
    follows.exists_takes (fun _ => True) (fun _ _ _ _ _ => trivial) trivial member
  exact htakes.1.symm.trans (fixed leaf subleaf before.processor any)

/-- A program that only queries comes to the same result wherever its queries are
answered alike. -/
theorem Program.Yields.result_of_answered {answers : UInt32 → UInt32 → Registers}
    {program : Program α} {trace other : List Exchange} {result outcome : α}
    (asks : program.Asks Call.IsQuery) (yields : program.Yields trace result)
    (answered : AnsweredBy answers trace) (yields' : program.Yields other outcome)
    (answered' : AnsweredBy answers other) : result = outcome := by
  induction program generalizing trace other with
  | done a =>
    cases yields
    cases yields'
    rfl
  | ask call next ih =>
    cases yields with
    | query h =>
      cases yields' with
      | query h' =>
        -- The same query gets the same answer, so both go on with the same program.
        have same := (answered _ _ _ List.mem_cons_self).trans
          (answered' _ _ _ List.mem_cons_self).symm
        subst same
        exact ih _ (asks.2 _) h (fun _ _ _ member => answered _ _ _ (.tail _ member)) h'
          (fun _ _ _ member => answered' _ _ _ (.tail _ member))
    | probe h => exact absurd asks.1 id
    | read h => exact absurd asks.1 id
    | write h => exact absurd asks.1 id
  | note event next ih =>
    cases yields with
    | note h =>
      cases yields' with
      | note h' =>
        exact ih asks h (fun _ _ _ member => answered _ _ _ (.tail _ member)) h'
          (fun _ _ _ member => answered' _ _ _ (.tail _ member))

/-- On a fixed processor, two runs of a program that only queries come to the
same result. -/
theorem Program.Yields.result_unique {machine : Machine κ σ} {program : Program α}
    {trace other : List Exchange} {result outcome : α} {state last start final : Machine.State κ σ}
    (fixed : machine.processor.Fixed) (asks : program.Asks Call.IsQuery)
    (yields : program.Yields trace result) (follows : machine.Follows state trace last)
    (yields' : program.Yields other outcome) (follows' : machine.Follows start other final) :
    result = outcome :=
  yields.result_of_answered asks (follows.answered fixed state.processor) yields'
    (follows'.answered fixed state.processor)

namespace Settings

/-- Every examination on this machine finds the same support. -/
def Finds (settings : Settings) (machine : Machine κ σ) (support : Support) : Prop :=
  ∀ trace found state last, settings.examineProcessor.Yields trace found →
    machine.Follows state trace last → found = support

/-- On a fixed processor, every examination finds what one run of it finds, also beside
another store. -/
theorem finds_beside {settings : Settings} {machine : Machine κ σ} {τ : Type}
    (fixed : machine.processor.Fixed) (start : Machine.State κ σ) (store : Store τ) :
    settings.Finds ⟨machine.processor, store⟩
      (settings.examineProcessor.run machine start).result := by
  intro trace found state last hyields hfollows
  obtain ⟨other, hyields', hfollows', -⟩ :=
    settings.examineProcessor.exists_yields_follows machine start
  exact hyields.result_of_answered (Support.asks_examine _)
    (hfollows.answered fixed start.processor) hyields'
    (hfollows'.answered fixed start.processor)

theorem finds_of_fixed {settings : Settings} {machine : Machine κ σ}
    (fixed : machine.processor.Fixed) (start : Machine.State κ σ) :
    settings.Finds machine (settings.examineProcessor.run machine start).result :=
  finds_beside fixed start machine.store

end Settings

end SgxActivation
