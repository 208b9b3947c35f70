import SgxActivation.Cpuid
import SgxActivation.Event
import SgxActivation.Record

/-!
# Programs

A **program** is a computation written without the machine that it runs on: it
ends with a result, or it makes one **call** and goes on with whatever is
answered, or it **notes** an event. Calls query the processor, probe a path, or
read or write a whole record. Since a program is a plain value, one and the
same program can be run on a recorded processor and a scripted store, on a
modelled filesystem, or step by step among others.

`Attempt` is a program that may stop early with a failure. The lemmas `run_…`
spell an attempt out as calls and events.
-/

namespace SgxActivation

/-- What a probe finds at a path. -/
inductive Presence where
  | present
  /-- Nothing there, or something on the way that is no directory. -/
  | absent
  | denied
  | failed (reason : String)
  deriving DecidableEq, Repr

/-- One call of a program to its machine. -/
inductive Call where
  | query (leaf subleaf : UInt32)
  | probe (path : Path)
  | read (path : Path) (length : Nat)
  | write (path : Path) (bytes : Bytes)
  deriving DecidableEq, Repr

/-- What a call is answered with. -/
abbrev Call.Answer : Call → Type
  | .query .. => Registers
  | .probe _ => Presence
  | .read .. => Except Failure Bytes
  | .write .. => Except Failure Unit

/-- A computation that makes calls and notes events on its way to a result. -/
inductive Program (α : Type) where
  | done (result : α)
  | ask (call : Call) (next : call.Answer → Program α)
  | note (event : Event) (next : Program α)

namespace Program

variable {α β γ : Type}

/-- Goes on with `next` where `program` ends. -/
def andThen (program : Program α) (next : α → Program β) : Program β :=
  match program with
  | .done result => next result
  | .ask call rest => .ask call fun answer => (rest answer).andThen next
  | .note event rest => .note event (rest.andThen next)

instance : Monad Program where
  pure := .done
  bind := andThen

theorem pure_eq (a : α) : (pure a : Program α) = .done a := rfl

theorem bind_eq (p : Program α) (f : α → Program β) : p >>= f = p.andThen f := rfl

theorem map_eq (f : α → β) (p : Program α) : f <$> p = p.andThen fun a => .done (f a) := rfl

@[simp]
theorem andThen_done (p : Program α) : p.andThen .done = p := by
  induction p with
  | done _ => rfl
  | ask call rest ih =>
    simp only [andThen]
    congr 1
    funext answer
    exact ih answer
  | note event rest ih => simp only [andThen, ih]

theorem andThen_assoc (p : Program α) (f : α → Program β) (g : β → Program γ) :
    (p.andThen f).andThen g = p.andThen fun a => (f a).andThen g := by
  induction p with
  | done _ => rfl
  | ask call rest ih =>
    simp only [andThen]
    congr 1
    funext answer
    exact ih answer
  | note event rest ih => simp only [andThen, ih]

instance : LawfulMonad Program :=
  LawfulMonad.mk' Program (fun p => andThen_done p) (fun _ _ => rfl) andThen_assoc

/-- Queries the processor. -/
def query (leaf subleaf : UInt32) : Program Registers := .ask (.query leaf subleaf) .done

/-- Probes a path. -/
def probe (path : Path) : Program Presence := .ask (.probe path) .done

/-- Notes an event and nothing else. -/
def log (event : Event) : Program Unit := .note event (.done ())

end Program

/-- A program that may stop with a failure. -/
abbrev Attempt (α : Type) := ExceptT Failure Program α

namespace Attempt

variable {α β : Type}

/-- Reads the first `length` bytes of a record. -/
def read (path : Path) (length : Nat) : Attempt Bytes :=
  ExceptT.mk (.ask (.read path length) .done)

/-- Writes a whole record. -/
def write (path : Path) (bytes : Bytes) : Attempt Unit :=
  ExceptT.mk (.ask (.write path bytes) .done)

/-- Notes an event. -/
def log (event : Event) : Attempt Unit := Program.log event

/-! ## Attempts as programs -/

/-- A failure ends an attempt: what follows is not tried. -/
theorem run_bind (attempt : Attempt α) (next : α → Attempt β) :
    (attempt >>= next).run = attempt.run.andThen fun
      | .ok a => (next a).run
      | .error failure => .done (.error failure) := by
  rw [ExceptT.run_bind, Program.bind_eq]
  congr 1
  funext result
  cases result <;> rfl

theorem run_lift (program : Program α) :
    (liftM program : Attempt α).run = program.andThen fun a => .done (.ok a) := rfl

theorem run_ofExcept (result : Except Failure α) :
    (liftM result : Attempt α).run = .done result := by
  cases result <;> rfl

theorem run_read (path : Path) (length : Nat) :
    (read path length).run = .ask (.read path length) .done := rfl

theorem run_write (path : Path) (bytes : Bytes) :
    (write path bytes).run = .ask (.write path bytes) .done := rfl

theorem run_log (event : Event) : (log event).run = .note event (.done (.ok ())) := rfl

end Attempt

end SgxActivation
