import SgxActivation.Machine

/-!
# Traces from two sides

A run is a trace that its program and its machine agree on. Each side is told
here without the other:

* **`Program.Yields`** — for some answers, the program makes exactly the calls
  of the trace, notes exactly its events, and ends with the result;
* **`Machine.Follows`** — the machine answers the calls of the trace as the
  trace says, and goes from one state to another meanwhile;
* `exists_yields_follows` — what a run leaves behind is such a trace, except
  that the store may have noted events of its own. **`calls`** forgets events.
-/

namespace SgxActivation

variable {α β κ σ : Type}

namespace Exchange

/-- Whether an exchange is a call. -/
def isCall : Exchange → Bool
  | .event _ => false
  | _ => true

/-- Whether an exchange is a query to the processor. -/
def isQuery : Exchange → Bool
  | .query .. => true
  | _ => false

/-- Whether an exchange only looks: a query or a probe. -/
def isLook : Exchange → Bool
  | .query .. | .probe .. => true
  | _ => false

/-- Whether an exchange is a write, successful or not. -/
def isWrite : Exchange → Bool
  | .write .. => true
  | _ => false

/-- The calls of a trace. -/
def calls (trace : List Exchange) : List Exchange := trace.filter isCall

@[simp]
theorem calls_nil : calls [] = [] := rfl

@[simp]
theorem calls_append (first second : List Exchange) :
    calls (first ++ second) = calls first ++ calls second :=
  List.filter_append ..

@[simp]
theorem calls_event (event : Event) (rest : List Exchange) :
    calls (.event event :: rest) = calls rest := rfl

@[simp]
theorem calls_query (leaf subleaf : UInt32) (registers : Registers) (rest : List Exchange) :
    calls (.query leaf subleaf registers :: rest) =
      .query leaf subleaf registers :: calls rest := rfl

@[simp]
theorem calls_probe (path : Path) (presence : Presence) (rest : List Exchange) :
    calls (.probe path presence :: rest) = .probe path presence :: calls rest := rfl

@[simp]
theorem calls_read (path : Path) (length : Nat) (result : Except Failure Bytes)
    (rest : List Exchange) :
    calls (.read path length result :: rest) = .read path length result :: calls rest := rfl

@[simp]
theorem calls_write (path : Path) (bytes : Bytes) (result : Except Failure Unit)
    (rest : List Exchange) :
    calls (.write path bytes result :: rest) = .write path bytes result :: calls rest := rfl

@[simp]
theorem calls_events (events : List Event) : calls (events.map .event) = [] := by
  induction events with
  | nil => rfl
  | cons event rest ih => simpa using ih

theorem isLook_of_isQuery {exchange : Exchange} (h : exchange.isQuery = true) :
    exchange.isLook = true := by
  cases exchange with
  | query leaf subleaf registers => rfl
  | _ => cases h

/-- Exchanges of which none is a write. -/
def Writeless (exchanges : List Exchange) : Prop :=
  ∀ exchange ∈ exchanges, exchange.isWrite = false

theorem writeless_nil : Writeless [] := by simp [Writeless]

theorem Writeless.append {first second : List Exchange} (hfirst : Writeless first)
    (hsecond : Writeless second) : Writeless (first ++ second) :=
  List.forall_mem_append.2 ⟨hfirst, hsecond⟩

theorem writeless_of_isLook {exchanges : List Exchange}
    (h : ∀ exchange ∈ exchanges, exchange.isLook = true) : Writeless exchanges := by
  intro exchange member
  have hlook := h exchange member
  cases exchange with
  | write path bytes written => cases hlook
  | _ => rfl

end Exchange

open Exchange

/-! ## The side of the program -/

/-- A trace and the result that a program comes to along it. -/
inductive Program.Yields : Program α → List Exchange → α → Prop
  | done (result : α) : Yields (.done result) [] result
  | query {leaf subleaf next registers trace result} : Yields (next registers) trace result →
      Yields (.ask (.query leaf subleaf) next) (.query leaf subleaf registers :: trace) result
  | probe {path next presence trace result} : Yields (next presence) trace result →
      Yields (.ask (.probe path) next) (.probe path presence :: trace) result
  | read {path length next bytes trace result} : Yields (next bytes) trace result →
      Yields (.ask (.read path length) next) (.read path length bytes :: trace) result
  | write {path bytes next written trace result} : Yields (next written) trace result →
      Yields (.ask (.write path bytes) next) (.write path bytes written :: trace) result
  | note {event next trace result} : Yields next trace result →
      Yields (.note event next) (.event event :: trace) result

namespace Program

theorem Yields.ask {call : Call} {next : call.Answer → Program α} {answer : call.Answer}
    {trace : List Exchange} {result : α} (h : (next answer).Yields trace result) :
    (Program.ask call next).Yields (call.exchange answer :: trace) result := by
  cases call with
  | query leaf subleaf => exact .query h
  | probe path => exact .probe h
  | read path length => exact .read h
  | write path bytes => exact .write h

/-- A trace of two programs in sequence splits where the first one ends. -/
theorem Yields.split {program : Program α} {next : α → Program β} {trace : List Exchange}
    {result : β} (h : (program.andThen next).Yields trace result) :
    ∃ first a second, program.Yields first a ∧ (next a).Yields second result ∧
      trace = first ++ second := by
  -- On the first program: the trace itself does not tell where it ends.
  induction program generalizing trace with
  | done a => exact ⟨[], a, trace, .done a, h, rfl⟩
  | ask call rest ih =>
    cases h with
    | query h =>
      obtain ⟨first, a, second, hfirst, hsecond, rfl⟩ := ih _ h
      exact ⟨_ :: first, a, second, .query hfirst, hsecond, rfl⟩
    | probe h =>
      obtain ⟨first, a, second, hfirst, hsecond, rfl⟩ := ih _ h
      exact ⟨_ :: first, a, second, .probe hfirst, hsecond, rfl⟩
    | read h =>
      obtain ⟨first, a, second, hfirst, hsecond, rfl⟩ := ih _ h
      exact ⟨_ :: first, a, second, .read hfirst, hsecond, rfl⟩
    | write h =>
      obtain ⟨first, a, second, hfirst, hsecond, rfl⟩ := ih _ h
      exact ⟨_ :: first, a, second, .write hfirst, hsecond, rfl⟩
  | note event rest ih =>
    cases h with
    | note h =>
      obtain ⟨first, a, second, hfirst, hsecond, rfl⟩ := ih h
      exact ⟨_ :: first, a, second, .note hfirst, hsecond, rfl⟩

/-- Every call that the program could make is allowed. -/
def Asks (allowed : Call → Prop) : Program α → Prop
  | .done _ => True
  | .ask call next => allowed call ∧ ∀ answer, (next answer).Asks allowed
  | .note _ next => next.Asks allowed

theorem Asks.andThen {allowed : Call → Prop} {program : Program α} {next : α → Program β}
    (first : program.Asks allowed) (second : ∀ a, (next a).Asks allowed) :
    (program.andThen next).Asks allowed := by
  induction program with
  | done a => exact second a
  | ask call rest ih => exact ⟨first.1, fun answer => ih answer (first.2 answer)⟩
  | note event rest ih => exact ih first

theorem Asks.mono {allowed wider : Call → Prop} {program : Program α} (h : program.Asks allowed)
    (within : ∀ call, allowed call → wider call) : program.Asks wider := by
  induction program with
  | done result => trivial
  | ask call next ih => exact ⟨within call h.1, fun answer => ih answer (h.2 answer)⟩
  | note event next ih => exact ih h

theorem asks_of_forall {allowed : Call → Prop} (program : Program α)
    (all : ∀ call, allowed call) : program.Asks allowed := by
  induction program with
  | done result => trivial
  | ask call next ih => exact ⟨all call, ih⟩
  | note event next ih => exact ih

end Program

/-! ### Attempts -/

namespace Attempt

/-- A trace of two attempts in sequence ends with the first one if that fails. -/
theorem yields_bind {attempt : Attempt α} {next : α → Attempt β} {trace : List Exchange}
    {result : Except Failure β} (h : (attempt >>= next).run.Yields trace result) :
    (∃ failure, attempt.run.Yields trace (.error failure) ∧ result = .error failure) ∨
      ∃ first a second, attempt.run.Yields first (.ok a) ∧ (next a).run.Yields second result ∧
        trace = first ++ second := by
  rw [run_bind] at h
  obtain ⟨first, value, second, hfirst, hsecond, rfl⟩ := h.split
  cases value with
  | error failure =>
    cases hsecond
    exact .inl ⟨failure, by simpa using hfirst, rfl⟩
  | ok a => exact .inr ⟨first, a, second, hfirst, hsecond, rfl⟩

theorem yields_lift {program : Program α} {trace : List Exchange}
    {result : Except Failure α} (h : (liftM program : Attempt α).run.Yields trace result) :
    ∃ a, program.Yields trace a ∧ result = .ok a := by
  rw [run_lift] at h
  obtain ⟨first, a, second, hfirst, hsecond, rfl⟩ := h.split
  cases hsecond
  exact ⟨a, by simpa using hfirst, rfl⟩

theorem yields_log_bind {event : Event} {next : Unit → Attempt β} {trace : List Exchange}
    {result : Except Failure β} (h : (log event >>= next).run.Yields trace result) :
    ∃ rest, calls trace = calls rest ∧ (next ()).run.Yields rest result := by
  rw [run_bind, run_log] at h
  cases h with
  | note hnext => exact ⟨_, calls_event .., hnext⟩

/-- What is noted on one of two ways does not show in the calls. -/
theorem yields_noted {condition : Bool} {event : Event} {next : Unit → Attempt β}
    {trace : List Exchange} {result : Except Failure β}
    (h : (if condition = true then log event >>= next else next ()).run.Yields trace result) :
    ∃ rest, calls trace = calls rest ∧ (next ()).run.Yields rest result := by
  cases condition with
  | false => exact ⟨trace, rfl, h⟩
  | true => exact yields_log_bind h

end Attempt

/-! ## The side of the machine -/

namespace Machine

/-- What a machine answers to a call in a state, and the state after. -/
def Gives (machine : Machine κ σ) (state : State κ σ) (call : Call) (answer : call.Answer)
    (next : State κ σ) : Prop :=
  (machine.reply state call).answer = answer ∧ (machine.reply state call).state = next

/-- One exchange from the side of the machine. Events leave it where it is. -/
def Takes (machine : Machine κ σ) (state : State κ σ) : Exchange → State κ σ → Prop
  | .query leaf subleaf registers, next => machine.Gives state (.query leaf subleaf) registers next
  | .probe path presence, next => machine.Gives state (.probe path) presence next
  | .read path length result, next => machine.Gives state (.read path length) result next
  | .write path bytes result, next => machine.Gives state (.write path bytes) result next
  | .event _, next => next = state

theorem takes_exchange (machine : Machine κ σ) (state : State κ σ) (call : Call) :
    machine.Takes state (call.exchange (machine.reply state call).answer)
      (machine.reply state call).state := by
  cases call <;> exact ⟨rfl, rfl⟩

/-- A machine answers a trace from one state to another. -/
inductive Follows (machine : Machine κ σ) : State κ σ → List Exchange → State κ σ → Prop
  | nil (state) : Follows machine state [] state
  | cons {state exchange next rest last} : machine.Takes state exchange next →
      Follows machine next rest last → Follows machine state (exchange :: rest) last

variable {machine : Machine κ σ} {state last : State κ σ}

theorem follows_cons {exchange : Exchange} {rest : List Exchange} :
    machine.Follows state (exchange :: rest) last ↔
      ∃ next, machine.Takes state exchange next ∧ machine.Follows next rest last := by
  constructor
  · intro h
    cases h with
    | cons htakes h => exact ⟨_, htakes, h⟩
  · rintro ⟨next, htakes, h⟩
    exact .cons htakes h

/-- Events do not matter to the machine. -/
theorem follows_calls {trace : List Exchange} :
    machine.Follows state (calls trace) last ↔ machine.Follows state trace last := by
  induction trace generalizing state with
  | nil => rfl
  | cons exchange rest ih =>
    cases exchange with
    | event event => simp [follows_cons, Takes, ih]
    | query leaf subleaf registers => simp [follows_cons, ih]
    | probe path presence => simp [follows_cons, ih]
    | read path length result => simp [follows_cons, ih]
    | write path bytes result => simp [follows_cons, ih]

theorem follows_nil : machine.Follows state [] last ↔ last = state := by
  constructor
  · intro h
    cases h
    rfl
  · rintro rfl
    exact .nil _

theorem follows_append {first second : List Exchange} :
    machine.Follows state (first ++ second) last ↔
      ∃ mid, machine.Follows state first mid ∧ machine.Follows mid second last := by
  induction first generalizing state with
  | nil => simp [follows_nil]
  | cons exchange rest ih =>
    simp only [List.cons_append, follows_cons, ih]
    constructor
    · rintro ⟨next, htakes, mid, hfirst, hsecond⟩
      exact ⟨mid, ⟨next, htakes, hfirst⟩, hsecond⟩
    · rintro ⟨mid, ⟨next, htakes, hfirst⟩, hsecond⟩
      exact ⟨next, htakes, mid, hfirst, hsecond⟩

theorem follows_singleton {exchange : Exchange} :
    machine.Follows state [exchange] last ↔ machine.Takes state exchange last := by
  simp [follows_cons, follows_nil]

/-- What every exchange of a trace preserves, the whole trace preserves. -/
theorem Follows.preserves {trace : List Exchange} (follows : machine.Follows state trace last)
    (holds : State κ σ → Prop)
    (step : ∀ exchange ∈ trace, ∀ before after, machine.Takes before exchange after →
      holds before → holds after)
    (initial : holds state) : holds last := by
  induction follows with
  | nil => exact initial
  | cons htakes _ ih =>
    refine ih (fun exchange member => step exchange (List.mem_cons_of_mem _ member)) ?_
    exact step _ List.mem_cons_self _ _ htakes initial

/-- Every exchange of a trace takes place in a state with the invariant. -/
theorem Follows.exists_takes {trace : List Exchange} (follows : machine.Follows state trace last)
    (holds : State κ σ → Prop)
    (step : ∀ exchange before after, machine.Takes before exchange after →
      holds before → holds after)
    (initial : holds state) {exchange : Exchange} (member : exchange ∈ trace) :
    ∃ before after, holds before ∧ machine.Takes before exchange after := by
  induction follows with
  | nil => cases member
  | @cons before first after rest last htakes hrest ih =>
    rcases List.mem_cons.1 member with rfl | member
    · exact ⟨before, after, initial, htakes⟩
    · exact ih (step first before after htakes initial) member

end Machine

/-! ## Both sides of a run -/

namespace Program

/-- A run leaves a trace behind that its machine answers. -/
theorem run_follows (machine : Machine κ σ) (program : Program α)
    (state : Machine.State κ σ) :
    machine.Follows state (program.run machine state).trace (program.run machine state).final := by
  induction program generalizing state with
  | done result => exact .nil state
  | ask call next ih =>
    rw [run_ask]
    refine .cons (machine.takes_exchange state call) ?_
    rw [← Machine.follows_calls, calls_append, calls_events, List.nil_append,
      Machine.follows_calls]
    exact ih _ _
  | note event next ih =>
    rw [run_note]
    exact .cons rfl (ih state)

/-- Where nothing is noted while its calls are answered, a program has the whole trace of its run
for itself. -/
theorem run_yields_of_silent {machine : Machine κ σ} {program : Program α}
    (silent : program.Asks fun call => ∀ state, (machine.reply state call).events = [])
    (state : Machine.State κ σ) :
    program.Yields (program.run machine state).trace (program.run machine state).result := by
  induction program generalizing state with
  | done result => exact .done result
  | ask call next ih =>
    rw [run_ask]
    simp only [silent.1, List.map_nil, List.nil_append]
    exact .ask (ih _ (silent.2 _) _)
  | note event next ih =>
    rw [run_note]
    exact .note (ih silent state)

/-- Without what the store noted, a run leaves a trace behind that the program
yields and the machine answers. -/
theorem exists_yields_follows (machine : Machine κ σ) (program : Program α)
    (state : Machine.State κ σ) :
    ∃ trace, program.Yields trace (program.run machine state).result ∧
      machine.Follows state trace (program.run machine state).final ∧
      calls trace = calls (program.run machine state).trace := by
  suffices own : ∃ trace, program.Yields trace (program.run machine state).result ∧
      calls trace = calls (program.run machine state).trace by
    -- The run's own trace differs from this one in events only, so the machine follows both.
    obtain ⟨trace, hyields, hcalls⟩ := own
    refine ⟨trace, hyields, ?_, hcalls⟩
    rw [← Machine.follows_calls, hcalls, Machine.follows_calls]
    exact run_follows machine program state
  induction program generalizing state with
  | done result => exact ⟨[], .done result, rfl⟩
  | ask call next ih =>
    obtain ⟨trace, hyields, hcalls⟩ := ih _ (machine.reply state call).state
    rw [run_ask]
    refine ⟨_, .ask hyields, ?_⟩
    cases call <;> simp [Call.exchange, hcalls]
  | note event next ih =>
    obtain ⟨trace, hyields, hcalls⟩ := ih state
    rw [run_note]
    exact ⟨_, .note hyields, by simp [hcalls]⟩

/-- A trace that the program yields and the machine answers is the one of the run: it tells
the run's result, its final state and its calls. -/
theorem Yields.run_eq {machine : Machine κ σ} {program : Program α} {trace : List Exchange}
    {result : α} {state last : Machine.State κ σ} (yields : program.Yields trace result)
    (follows : machine.Follows state trace last) :
    (program.run machine state).result = result ∧ (program.run machine state).final = last ∧
      calls (program.run machine state).trace = calls trace := by
  induction yields generalizing state with
  | done result =>
    cases Machine.follows_nil.1 follows
    exact ⟨rfl, rfl, rfl⟩
  | query h ih =>
    obtain ⟨next, ⟨rfl, rfl⟩, hrest⟩ := Machine.follows_cons.1 follows
    obtain ⟨hresult, hfinal, hcalls⟩ := ih hrest
    rw [run_ask]
    exact ⟨hresult, hfinal, by simp [Call.exchange, hcalls]⟩
  | probe h ih =>
    obtain ⟨next, ⟨rfl, rfl⟩, hrest⟩ := Machine.follows_cons.1 follows
    obtain ⟨hresult, hfinal, hcalls⟩ := ih hrest
    rw [run_ask]
    exact ⟨hresult, hfinal, by simp [Call.exchange, hcalls]⟩
  | read h ih =>
    obtain ⟨next, ⟨rfl, rfl⟩, hrest⟩ := Machine.follows_cons.1 follows
    obtain ⟨hresult, hfinal, hcalls⟩ := ih hrest
    rw [run_ask]
    exact ⟨hresult, hfinal, by simp [Call.exchange, hcalls]⟩
  | write h ih =>
    obtain ⟨next, ⟨rfl, rfl⟩, hrest⟩ := Machine.follows_cons.1 follows
    obtain ⟨hresult, hfinal, hcalls⟩ := ih hrest
    rw [run_ask]
    exact ⟨hresult, hfinal, by simp [Call.exchange, hcalls]⟩
  | note h ih =>
    obtain ⟨next, hnext, hrest⟩ := Machine.follows_cons.1 follows
    cases hnext
    obtain ⟨hresult, hfinal, hcalls⟩ := ih hrest
    rw [run_note]
    exact ⟨hresult, hfinal, by simpa using hcalls⟩

end Program

end SgxActivation
