import Mathlib.Data.Nat.Find
import Mathlib.Logic.Function.Basic
import SgxActivation.Proofs.Scope

/-!
# Interleaved runs

Programs that are run at the same time on one machine. Each is **under way**: it has a
past, which is a trace, and a program is left of it. A **schedule** says whose turn it
is, and a turn is one call or one event, so that anything may happen between two calls
of a run, except in the middle of one.

* `Crowd.advance`, **`Crowd.play`** — a turn, and all turns of a schedule;
* `advance_cases` — a turn is a move of a program that the machine takes;
* `UnderWay.Fits` — a past, and whatever may follow it, is a trace of the program;
* `play_invariant` — what every turn preserves, a schedule preserves;
* `exists_done_of_fair` — who gets a turn again and again comes to an end.
-/

namespace SgxActivation

variable {ι κ σ α : Type}

/-! ## Moves -/

/-- A program makes a call, is answered and goes on, or it notes an event. -/
inductive Program.Moves : Program α → Exchange → Program α → Prop
  | ask (call next) (answer : call.Answer) :
      Moves (.ask call next) (call.exchange answer) (next answer)
  | note (event next) : Moves (.note event next) (.event event) next

namespace Program.Moves

variable {program next : Program α} {exchange : Exchange}

theorem yields (moves : program.Moves exchange next) {trace : List Exchange} {result : α}
    (h : next.Yields trace result) : program.Yields (exchange :: trace) result := by
  cases moves with
  | ask call next answer => exact .ask h
  | note event next => exact .note h

theorem asks (moves : program.Moves exchange next) {allowed : Call → Prop}
    (h : program.Asks allowed) : exchange.Within allowed ∧ next.Asks allowed := by
  cases moves with
  | ask call next answer => exact ⟨(Exchange.within_exchange answer).2 h.1, h.2 answer⟩
  | note event next => exact ⟨trivial, h⟩

end Program.Moves

/-- A program in the middle of a run. -/
structure UnderWay (α : Type) where
  past : List Exchange
  rest : Program α

/-- The past and whatever the rest may yield are together a trace of the program. -/
def UnderWay.Fits (run : UnderWay α) (program : Program α) : Prop :=
  ∀ trace result, run.rest.Yields trace result → program.Yields (run.past ++ trace) result

namespace UnderWay

variable {run : UnderWay α} {program : Program α}

theorem fits_start (program : Program α) : (⟨[], program⟩ : UnderWay α).Fits program :=
  fun _ _ h => h

theorem Fits.move (h : run.Fits program) {exchange : Exchange} {next : Program α}
    (moves : run.rest.Moves exchange next) :
    (⟨run.past ++ [exchange], next⟩ : UnderWay α).Fits program := by
  intro trace result hyields
  rw [List.append_assoc]
  exact h _ _ (moves.yields hyields)

/-- At the end of a run, its past is a trace of the program. -/
theorem Fits.done (h : run.Fits program) {result : α} (done : run.rest = .done result) :
    program.Yields run.past result := by
  have hyields := h [] result (done ▸ .done result)
  rwa [List.append_nil] at hyields

end UnderWay

/-! ## Turns -/

/-- Runs that are under way on one machine. -/
structure Crowd (ι κ σ α : Type) where
  shared : Machine.State κ σ
  runs : ι → UnderWay α

namespace Crowd

/-- Runs of these programs before the first turn. -/
def start (shared : Machine.State κ σ) (programs : ι → Program α) : Crowd ι κ σ α :=
  ⟨shared, fun i => ⟨[], programs i⟩⟩

variable [DecidableEq ι]

/-- One turn. A run that has ended lets it pass. -/
def advance (machine : Machine κ σ) (crowd : Crowd ι κ σ α) (turn : ι) : Crowd ι κ σ α :=
  let past := (crowd.runs turn).past
  match (crowd.runs turn).rest with
  | .done _ => crowd
  | .note event next =>
    { crowd with runs := Function.update crowd.runs turn ⟨past ++ [.event event], next⟩ }
  | .ask call next =>
    let reply := machine.reply crowd.shared call
    ⟨reply.state, Function.update crowd.runs turn
      ⟨past ++ [call.exchange reply.answer], next reply.answer⟩⟩

/-- The turns of a schedule, one after the other. -/
def play (machine : Machine κ σ) (crowd : Crowd ι κ σ α) (schedule : List ι) :
    Crowd ι κ σ α :=
  schedule.foldl (advance machine) crowd

variable {machine : Machine κ σ} {crowd : Crowd ι κ σ α} {turn : ι}

/-- In a turn, nothing happens after the end of the run, or the program moves and the
machine takes the move. -/
theorem advance_cases (machine : Machine κ σ) (crowd : Crowd ι κ σ α) (turn : ι) :
    crowd.advance machine turn = crowd ∨
      ∃ exchange next shared, (crowd.runs turn).rest.Moves exchange next ∧
        machine.Takes crowd.shared exchange shared ∧
        crowd.advance machine turn = ⟨shared, Function.update crowd.runs turn
          ⟨(crowd.runs turn).past ++ [exchange], next⟩⟩ := by
  unfold advance
  cases (crowd.runs turn).rest with
  | done result => exact .inl rfl
  | note event next => exact .inr ⟨_, next, crowd.shared, .note event next, rfl, rfl⟩
  | ask call next =>
    exact .inr ⟨_, _, _, .ask call next _, machine.takes_exchange crowd.shared call, rfl⟩

theorem play_append (first second : List ι) :
    crowd.play machine (first ++ second) = (crowd.play machine first).play machine second :=
  List.foldl_append

/-- What every turn preserves, a schedule preserves. -/
theorem play_invariant (holds : Crowd ι κ σ α → Prop)
    (step : ∀ crowd turn, holds crowd → holds (crowd.advance machine turn))
    (schedule : List ι) (initial : holds crowd) : holds (crowd.play machine schedule) := by
  induction schedule generalizing crowd with
  | nil => exact initial
  | cons turn rest ih => exact ih (step crowd turn initial)

/-! ## Fair schedules -/

/-- The first `count` turns of an endless schedule. -/
def after (machine : Machine κ σ) (crowd : Crowd ι κ σ α) (turns : Nat → ι) (count : Nat) :
    Crowd ι κ σ α :=
  crowd.play machine ((List.range count).map turns)

variable {turns : Nat → ι}

theorem after_succ (count : Nat) :
    crowd.after machine turns (count + 1) =
      (crowd.after machine turns count).advance machine (turns count) := by
  unfold after
  rw [List.range_succ, List.map_append, play_append]
  rfl

/-- The turns of others leave a run where it is. -/
theorem runs_advance_of_ne {other : ι} (h : other ≠ turn) :
    (crowd.advance machine turn).runs other = crowd.runs other := by
  rcases advance_cases machine crowd turn with hsame | ⟨exchange, next, shared, -, -, hmoved⟩
  · rw [hsame]
  · rw [hmoved]
    exact Function.update_of_ne h _ _

theorem runs_after_of_ne {count more : Nat}
    (others : ∀ n, count ≤ n → n < count + more → turns n ≠ turn) :
    (crowd.after machine turns (count + more)).runs turn =
      (crowd.after machine turns count).runs turn := by
  induction more with
  | zero => rfl
  | succ more ih =>
    have hlast : turns (count + more) ≠ turn := others _ (by omega) (by omega)
    have hearlier := ih fun n hfrom hto => others n hfrom (by omega)
    rw [← Nat.add_assoc, after_succ, runs_advance_of_ne hlast.symm, hearlier]

/-- Up to its next turn a run stays where it is. -/
theorem exists_next_turn (fair : ∀ n, ∃ m, n ≤ m ∧ turns m = turn) (count : Nat) :
    ∃ later, turns later = turn ∧
      (crowd.after machine turns later).runs turn =
        (crowd.after machine turns count).runs turn := by
  classical
  have hexists : ∃ more, turns (count + more) = turn := by
    obtain ⟨m, hle, hturn⟩ := fair count
    exact ⟨m - count, by rwa [Nat.add_sub_cancel' hle]⟩
  refine ⟨_, Nat.find_spec hexists, runs_after_of_ne fun n hfrom hto hsame => ?_⟩
  refine Nat.find_min hexists (m := n - count) (by omega) ?_
  rwa [Nat.add_sub_cancel' hfrom]

/-- A run that gets a turn again and again comes to an end. -/
theorem exists_done_of_fair (machine : Machine κ σ) (crowd : Crowd ι κ σ α)
    (fair : ∀ n, ∃ m, n ≤ m ∧ turns m = turn) :
    ∃ count result, ((crowd.after machine turns count).runs turn).rest = .done result := by
  suffices ends : ∀ (program : Program α) count,
      ((crowd.after machine turns count).runs turn).rest = program →
      ∃ later result, ((crowd.after machine turns later).runs turn).rest = .done result from
    ends _ 0 rfl
  intro program
  -- With every turn, less is left of the program.
  induction program with
  | done result =>
    intro count hrest
    exact ⟨count, result, hrest⟩
  | ask call next ih =>
    intro count hrest
    obtain ⟨later, hturn, hsame⟩ := exists_next_turn fair count
    let reply := machine.reply (crowd.after machine turns later).shared call
    refine ih reply.answer (later + 1) ?_
    rw [after_succ, hturn]
    unfold advance
    rw [hsame, hrest]
    simp [reply]
  | note event next ih =>
    intro count hrest
    obtain ⟨later, hturn, hsame⟩ := exists_next_turn fair count
    refine ih (later + 1) ?_
    rw [after_succ, hturn]
    unfold advance
    rw [hsame, hrest]
    simp

end Crowd

end SgxActivation
