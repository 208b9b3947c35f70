import SgxActivation.Session
import SgxActivation.Proofs.Trace

/-!
# Sessions, step by step

* `run_append` — a session can be interrupted anywhere and taken up again;
* `run_invariant` — what every operation and every change from outside preserves,
  a session preserves, and what operations show in such states, it shows;
* **`Session.callsMade`** — the calls of all operations of a session, in order;
* **`Session.undisturbed`** — operations alone, one after the other.
-/

namespace SgxActivation.Session

variable {κ σ : Type} {settings : Settings} {machine : Machine κ σ}

/-- The calls that the operations of a session made, in order. -/
def callsMade (performances : List (Option Performance)) : List Exchange :=
  performances.flatMap fun performance =>
    (performance.map fun performed => Exchange.calls performed.trace).getD []

/-- The session of these operations without any change from outside. -/
def undisturbed (σ : Type) (operations : List Operation) : List (Step σ) :=
  operations.map .perform

theorem alter_not_mem_undisturbed {operations : List Operation} {change : σ → σ} :
    Step.alter change ∉ undisturbed σ operations := by
  simp [undisturbed]

theorem run_append (first second : List (Step σ)) (state : Machine.State κ σ) :
    run settings machine (first ++ second) state =
      let (earlier, middle) := run settings machine first state
      let (later, last) := run settings machine second middle
      (earlier ++ later, last) := by
  induction first generalizing state with
  | nil => rfl
  | cons step rest ih => simp [run, ih]

/-- What a session shows for an operation, the operation did from some state. -/
theorem exists_performed {steps : List (Step σ)} {state : Machine.State κ σ}
    {operation : Operation} {performance : Performance}
    (h : (Step.perform operation, some performance) ∈
      steps.zip (run settings machine steps state).1) :
    ∃ before, performance = (perform settings machine operation before).1 := by
  induction steps generalizing state with
  | nil => cases h
  | cons first rest ih =>
    simp only [run, List.zip_cons_cons, List.mem_cons] at h
    rcases h with heq | hrest
    · obtain ⟨rfl, hperformance⟩ := Prod.mk.inj heq
      exact ⟨state, Option.some.inj hperformance⟩
    · exact ih hrest

/-- An invariant of operations and of changes from outside is one of sessions, and
every operation shows what it does in states with the invariant. -/
theorem run_invariant (holds : Machine.State κ σ → Prop) (shows : Operation → Performance → Prop)
    {steps : List (Step σ)} {state : Machine.State κ σ}
    (performs : ∀ operation before, holds before →
      shows operation (perform settings machine operation before).1 ∧
        holds (perform settings machine operation before).2)
    (alters : ∀ change, Step.alter change ∈ steps → ∀ before, holds before →
      holds { before with store := change before.store })
    (initial : holds state) :
    holds (run settings machine steps state).2 ∧
      ∀ operation performance, (Step.perform operation, some performance) ∈
        steps.zip (run settings machine steps state).1 → shows operation performance := by
  induction steps generalizing state with
  | nil => exact ⟨initial, fun _ _ member => by cases member⟩
  | cons first rest ih =>
    have hrest : ∀ change, Step.alter change ∈ rest → ∀ before, holds before →
        holds { before with store := change before.store } := fun change member =>
      alters change (List.mem_cons_of_mem _ member)
    cases first with
    | perform operation =>
      obtain ⟨hshows, hnext⟩ := performs operation state initial
      obtain ⟨hlast, hall⟩ := ih hrest hnext
      refine ⟨hlast, fun other performance member => ?_⟩
      rcases List.mem_cons.1 member with heq | member
      · cases heq
        exact hshows
      · exact hall other performance member
    | alter change =>
      obtain ⟨hlast, hall⟩ := ih hrest (alters change List.mem_cons_self state initial)
      refine ⟨hlast, fun other performance member => ?_⟩
      rcases List.mem_cons.1 member with heq | member
      · -- A change is no operation and shows nothing.
        cases heq
      · exact hall other performance member

/-- The calls of a session are those of its operations. -/
theorem mem_callsMade {steps : List (Step σ)} {state : Machine.State κ σ} {exchange : Exchange}
    (h : exchange ∈ callsMade (run settings machine steps state).1) :
    ∃ operation performance, (Step.perform operation, some performance) ∈
      steps.zip (run settings machine steps state).1 ∧
      exchange ∈ Exchange.calls performance.trace := by
  induction steps generalizing state with
  | nil => cases h
  | cons first rest ih =>
    simp only [run, callsMade, List.flatMap_cons, List.mem_append] at h
    rcases h with hfirst | hrest
    · cases first with
      | perform operation => exact ⟨operation, _, List.mem_cons_self, hfirst⟩
      | alter change => cases hfirst
    · obtain ⟨operation, performance, member, hexchange⟩ := ih hrest
      exact ⟨operation, performance, List.mem_cons_of_mem _ member, hexchange⟩

/-- What an operation does in a session, its program and the machine agree on. -/
theorem exists_yields_perform (settings : Settings) (machine : Machine κ σ) (operation : Operation)
    (before : Machine.State κ σ) :
    ∃ trace, (operation.program settings).Yields trace
        (perform settings machine operation before).1.outcome ∧
      machine.Follows before trace (perform settings machine operation before).2 ∧
      Exchange.calls trace = Exchange.calls (perform settings machine operation before).1.trace :=
  Program.exists_yields_follows machine _ before

end SgxActivation.Session
