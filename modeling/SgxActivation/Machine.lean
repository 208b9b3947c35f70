import SgxActivation.Program

/-!
# Running programs

A **machine** answers the calls of a program: a **processor** answers queries
and a **store** answers probes, reads and writes. Both keep a state of their
own and may answer the same call differently the next time; a store may note
events of its own while it answers.

Running a program on a machine yields its result, the machine's final state and
the **trace**: every call with its answer and every event, in order. The trace
is gathered backwards by `runFrom`; `run_done`, `run_ask` and `run_note` say
what `run` does without mention of that.
-/

namespace SgxActivation

variable {α β κ σ : Type}

/-- A source of register values. -/
structure Processor (κ : Type) where
  query : (leaf subleaf : UInt32) → κ → Registers × κ

/-- An answer, the events noted while it was found, and the state after. -/
structure Reply (α σ : Type) where
  answer : α
  events : List Event := []
  state : σ

/-- A store of named records. -/
structure Store (σ : Type) where
  probe : Path → σ → Reply Presence σ
  read : Path → Nat → σ → Reply (Except Failure Bytes) σ
  write : Path → Bytes → σ → Reply (Except Failure Unit) σ

/-- A processor and a store. -/
structure Machine (κ σ : Type) where
  processor : Processor κ
  store : Store σ

/-- The states of a machine's two parts. -/
structure Machine.State (κ σ : Type) where
  processor : κ
  store : σ

/-- Brings the reply of one part into the state of the whole. -/
def Reply.mapState {τ : Type} (f : σ → τ) (reply : Reply α σ) : Reply α τ :=
  ⟨reply.answer, reply.events, f reply.state⟩

/-- The answer of a machine to one call. -/
def Machine.reply (machine : Machine κ σ) (state : Machine.State κ σ) :
    (call : Call) → Reply call.Answer (Machine.State κ σ)
  | .query leaf subleaf =>
    let (registers, processor) := machine.processor.query leaf subleaf state.processor
    ⟨registers, [], { state with processor }⟩
  | .probe path =>
    (machine.store.probe path state.store).mapState fun store => { state with store }
  | .read path length =>
    (machine.store.read path length state.store).mapState fun store => { state with store }
  | .write path bytes =>
    (machine.store.write path bytes state.store).mapState fun store => { state with store }

/-- Results of reads and writes can be compared. -/
local instance decidableEqExcept {ε : Type} [DecidableEq ε] [DecidableEq α] :
    DecidableEq (Except ε α)
  | .ok a, .ok b => decidable_of_iff (a = b) ⟨congrArg Except.ok, Except.ok.inj⟩
  | .error e, .error f => decidable_of_iff (e = f) ⟨congrArg Except.error, Except.error.inj⟩
  | .ok _, .error _ | .error _, .ok _ => isFalse nofun

/-- One entry of a trace: a call with its answer, or an event. -/
inductive Exchange where
  | query (leaf subleaf : UInt32) (registers : Registers)
  | probe (path : Path) (presence : Presence)
  | read (path : Path) (length : Nat) (result : Except Failure Bytes)
  | write (path : Path) (bytes : Bytes) (result : Except Failure Unit)
  | event (event : Event)
  deriving DecidableEq

/-- A call together with its answer. -/
def Call.exchange : (call : Call) → call.Answer → Exchange
  | .query leaf subleaf, registers => .query leaf subleaf registers
  | .probe path, presence => .probe path presence
  | .read path length, result => .read path length result
  | .write path bytes, result => .write path bytes result

/-- What running a program came to. -/
structure Execution (α ω : Type) where
  result : α
  trace : List Exchange
  final : ω

namespace Program

/-- Runs a program behind the exchanges in `past`, latest first. -/
def runFrom (machine : Machine κ σ) :
    Program α → Machine.State κ σ → List Exchange → Execution α (Machine.State κ σ)
  | .done result, state, past => ⟨result, past.reverse, state⟩
  | .ask call next, state, past =>
    let reply := machine.reply state call
    runFrom machine (next reply.answer) reply.state
      ((reply.events.map Exchange.event).reverseAux (call.exchange reply.answer :: past))
  | .note event next, state, past => runFrom machine next state (.event event :: past)

/-- Runs a program from a state. -/
def run (machine : Machine κ σ) (program : Program α) (state : Machine.State κ σ) :
    Execution α (Machine.State κ σ) :=
  program.runFrom machine state []

/-- Exchanges of the past stand before those of the run and change nothing else. -/
theorem runFrom_eq (machine : Machine κ σ) (program : Program α)
    (state : Machine.State κ σ) (past : List Exchange) :
    program.runFrom machine state past =
      ⟨(program.run machine state).result, past.reverse ++ (program.run machine state).trace,
        (program.run machine state).final⟩ := by
  induction program generalizing state past with
  | done result => simp [runFrom, run]
  | ask call next ih =>
    simp only [runFrom, run]
    rw [ih, ih _ _ (List.reverseAux _ _)]
    simp [List.reverseAux_eq]
  | note event next ih =>
    simp only [runFrom, run]
    rw [ih, ih _ [_]]
    simp

@[simp]
theorem run_done (machine : Machine κ σ) (result : α) (state : Machine.State κ σ) :
    (Program.done result).run machine state = ⟨result, [], state⟩ := rfl

theorem run_ask (machine : Machine κ σ) (call : Call) (next : call.Answer → Program α)
    (state : Machine.State κ σ) :
    (Program.ask call next).run machine state =
      let reply := machine.reply state call
      let rest := (next reply.answer).run machine reply.state
      ⟨rest.result,
        call.exchange reply.answer :: (reply.events.map Exchange.event ++ rest.trace),
        rest.final⟩ := by
  show runFrom machine _ _ _ = _
  simp only [runFrom]
  rw [runFrom_eq]
  simp [List.reverseAux_eq]

theorem run_note (machine : Machine κ σ) (event : Event) (next : Program α)
    (state : Machine.State κ σ) :
    (Program.note event next).run machine state =
      let rest := next.run machine state
      ⟨rest.result, .event event :: rest.trace, rest.final⟩ := by
  show runFrom machine _ _ _ = _
  simp only [runFrom]
  rw [runFrom_eq]
  simp

/-- A program and its continuation run one after the other. -/
theorem run_andThen (machine : Machine κ σ) (program : Program α) (next : α → Program β)
    (state : Machine.State κ σ) :
    (program.andThen next).run machine state =
      let first := program.run machine state
      let second := (next first.result).run machine first.final
      ⟨second.result, first.trace ++ second.trace, second.final⟩ := by
  induction program generalizing state with
  | done result => simp [andThen]
  | ask call rest ih => simp only [andThen, run_ask, ih]; simp
  | note event rest ih => simp only [andThen, run_note, ih]; simp

end Program

end SgxActivation
