import SgxActivation.Report
import SgxActivation.Machine

/-!
# Operations and sessions

The **operations** are what can be asked about a platform under given settings:
the three attempts, the examination of the processor and the whole report. A
**session** performs operations one after the other on one machine, and between
them the world outside may change the machine's store.
-/

namespace SgxActivation

/-- What can be asked about a platform. -/
inductive Operation where
  | classify
  | enable
  | isCapable
  | examineProcessor
  | evaluate (statusOnly : Bool)
  deriving DecidableEq, Repr

/-- What an operation comes to. -/
inductive Outcome where
  | status (result : Except Failure Status)
  | capable (result : Except Failure Bool)
  | support (support : Support)
  | report (report : Report)

/-- The program of an operation. -/
def Operation.program (settings : Settings) : Operation → Program Outcome
  | .classify => .status <$> settings.classify.run
  | .enable => .status <$> settings.enable.run
  | .isCapable => .capable <$> settings.isCapable.run
  | .examineProcessor => .support <$> settings.examineProcessor
  | .evaluate statusOnly => .report <$> settings.evaluate statusOnly

namespace Session

variable {κ σ : Type}

/-- One step of a session. -/
inductive Step (σ : Type) where
  /-- An operation is performed. -/
  | perform (operation : Operation)
  /-- The world outside changes the store. -/
  | alter (change : σ → σ)

/-- What a performed operation came to, and its trace. -/
structure Performance where
  outcome : Outcome
  trace : List Exchange

/-- Performs one operation. -/
def perform (settings : Settings) (machine : Machine κ σ) (operation : Operation)
    (state : Machine.State κ σ) : Performance × Machine.State κ σ :=
  let execution := (operation.program settings).run machine state
  (⟨execution.result, execution.trace⟩, execution.final)

/-- Takes one step; only a performed operation has something to show. -/
def step (settings : Settings) (machine : Machine κ σ) (state : Machine.State κ σ) :
    Step σ → Option Performance × Machine.State κ σ
  | .perform operation => (perform settings machine operation state).map some id
  | .alter change => (none, { state with store := change state.store })

/-- Takes the steps in order. -/
def run (settings : Settings) (machine : Machine κ σ) :
    List (Step σ) → Machine.State κ σ → List (Option Performance) × Machine.State κ σ
  | [], state => ([], state)
  | first :: rest, state =>
    let (performance, state) := step settings machine state first
    let (performances, state) := run settings machine rest state
    (performance :: performances, state)

end Session

end SgxActivation
