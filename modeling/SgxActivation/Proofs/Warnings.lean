import Mathlib.Control.Monad.Basic
import SgxActivation.Proofs.RecordedOnce
import SgxActivation.Proofs.Scope

/-!
# Warnings along a trace

What the log of an operation says above the level of details, told from its calls alone.

* **`Place`** — where among its calls an operation is, as far as a warning depends on it, and
  **`Place.warning?`** — the warning that a call at that place is due;
* `Settings.warningsDue` — so the calls of a whole trace are due a list of warnings;
* **`Program.Logs`** — a program notes each line that is due right behind its call, and no other
  line; `Logs.lines_eq` reads that off a trace;
* `Operation.logs` — every operation does;
* `Operation.warnings_eq` — so on a scripted store, which notes nothing itself, the warnings of
  an operation are those that are due, and the one informative line tells a recorded request.
-/

namespace SgxActivation

variable {α β κ σ : Type}

open Cpuid Exchange

/-! ## What is due -/

/-- A line of the log: its level and its text. -/
abbrev Line := Level × String

/-- The line of an event. -/
def Event.line (event : Event) : Line := (event.level, event.text)

/-- Where among its calls an operation is, as far as a warning depends on it. -/
inductive Place where
  /-- Right behind the `asked`-th query of an examination of the processor. -/
  | examining (asked : Nat)
  /-- Right behind a look at the firmware directory, first thing after an examination, that found
  nothing. What is probed next is the system partition. -/
  | bootless
  /-- Anywhere else. -/
  | elsewhere
  deriving DecidableEq, Repr

namespace Place

/-- The place behind one more exchange. An examination begins with the vendor. -/
def after (locations : Locations) (place : Place) : Exchange → Place
  | .query leaf _ _ =>
    if leaf = vendorLeaf then .examining 1
    else match place with
      | .examining asked => .examining (asked + 1)
      | _ => .elsewhere
  | .probe path .absent =>
    match place with
    | .examining _ => if path = locations.efiRoot then .bootless else .elsewhere
    | _ => .elsewhere
  | .event _ => place
  | _ => .elsewhere

/-- What a warning adds about a probe that only costs detail. -/
def remark (locations : Locations) (place : Place) (path : Path) : String :=
  if place = .bootless ∧ path = locations.bootEfi then ", reporting disabled" else ""

/-- The warning that an exchange is due. An examination asks for the vendor, the features and the
capabilities, and then for one sub-leaf after the other; so it has exhausted its cap where the
query behind `cap + 2` others finds one more section without memory. -/
def warning? (settings : Settings) (place : Place) : Exchange → Option String
  | .query leaf _ registers =>
    if leaf = enclaveLeaf ∧ place = .examining (settings.subleafCap.toNat + 2) ∧
        registers.isValidSection = true ∧ registers.hasMemory = false then
      let cap := settings.subleafCap.toNat
      some s!"Stopped EPC enumeration after {cap} sub-leaves without finding EPC memory"
    else none
  | .probe path .denied =>
    some (path.text ++ ": permission denied" ++ place.remark settings.locations path)
  | .probe path (.failed reason) =>
    some (path.text ++ ": " ++ reason ++ place.remark settings.locations path)
  | _ => none

/-- The lines that an exchange is due: a warning, or word of a request that was recorded. -/
def lines (settings : Settings) (place : Place) (exchange : Exchange) : List Line :=
  ((place.warning? settings exchange).map fun text => (Level.warn, text)).toList ++
    if exchange.isRecording then
      [(.info, "Software enable requested, reboot to finish enabling SGX")]
    else []

section

variable {settings : Settings} {place : Place} {asked : Nat} {leaf subleaf : UInt32}
  {registers : Registers} {path : Path} {reason : String}

theorem after_vendor {locations : Locations} :
    place.after locations (.query vendorLeaf subleaf registers) = .examining 1 := rfl

theorem after_query {locations : Locations} (other : leaf ≠ vendorLeaf) :
    (examining asked).after locations (.query leaf subleaf registers) =
      .examining (asked + 1) := by
  simp [after, other]

theorem lines_query (other : leaf ≠ enclaveLeaf) :
    place.lines settings (.query leaf subleaf registers) = [] := by
  simp [lines, warning?, other, isRecording]

theorem lines_sound (sound : ¬ (place = .examining (settings.subleafCap.toNat + 2) ∧
      registers.isValidSection = true ∧ registers.hasMemory = false)) :
    place.lines settings (.query enclaveLeaf subleaf registers) = [] := by
  simp only [lines, warning?, true_and, if_neg sound, isRecording]
  rfl

theorem lines_capped (valid : registers.isValidSection = true)
    (empty : registers.hasMemory = false) :
    (examining (settings.subleafCap.toNat + 2)).lines settings
        (.query enclaveLeaf subleaf registers) =
      [(Event.enumerationCapped settings.subleafCap).line] := by
  simp [lines, warning?, valid, empty, isRecording]
  rfl

theorem lines_denied (other : place ≠ .bootless) :
    place.lines settings (.probe path .denied) = [(Event.probeDenied path).line] := by
  simp [lines, warning?, remark, other, isRecording]
  rfl

theorem lines_failed (other : place ≠ .bootless) :
    place.lines settings (.probe path (.failed reason)) =
      [(Event.probeFailed path reason).line] := by
  simp [lines, warning?, remark, other, isRecording]
  rfl

theorem lines_partition_denied :
    bootless.lines settings (.probe settings.locations.bootEfi .denied) =
      [(Event.partitionDenied settings.locations.bootEfi).line] := by
  simp [lines, warning?, remark, isRecording, String.append_assoc]
  rfl

theorem lines_partition_failed :
    bootless.lines settings (.probe settings.locations.bootEfi (.failed reason)) =
      [(Event.partitionFailed settings.locations.bootEfi reason).line] := by
  simp [lines, warning?, remark, isRecording]
  rfl

end

end Place

namespace Settings

variable (settings : Settings)

/-- The warnings that exchanges from a place on are due. -/
def warningsFrom : Place → List Exchange → List String
  | _, [] => []
  | place, exchange :: rest =>
    (place.warning? settings exchange).toList ++
      warningsFrom (place.after settings.locations exchange) rest

/-- The warnings that the calls of an operation are due. -/
def warningsDue (calls : List Exchange) : List String := settings.warningsFrom .elsewhere calls

/-- The lines that exchanges from a place on are due. -/
def linesFrom : Place → List Exchange → List Line
  | _, [] => []
  | place, exchange :: rest =>
    place.lines settings exchange ++ linesFrom (place.after settings.locations exchange) rest

end Settings

/-! ## What is noted -/

/-- The lines of a trace that are more than details. -/
def Exchange.lines (trace : List Exchange) : List Line :=
  trace.filterMap fun
    | .event noted => if noted.level = .debug then none else some noted.line
    | _ => none

/-- A program, begun at a place where lines are due, notes them before its next call, and the same
for each of its calls; it notes no other line but details. What it ends with, and where, `ends`
tells. -/
def Program.Logs (settings : Settings) (ends : α → Place → Prop) :
    Program α → Place → List Line → Prop
  | .done result, place, due => due = [] ∧ ends result place
  | .ask call next, place, due => due = [] ∧ ∀ answer,
      (next answer).Logs settings ends (place.after settings.locations (call.exchange answer))
        (place.lines settings (call.exchange answer))
  | .note noted next, place, due =>
    if noted.level = .debug then next.Logs settings ends place due
    else due = [noted.line] ∧ next.Logs settings ends place []

namespace Program

variable {settings : Settings} {place : Place} {due : List Line}

theorem logs_note_iff {ends : α → Place → Prop} {noted : Event} {next : Program α} :
    (Program.note noted next).Logs settings ends place due ↔
      noted.level = .debug ∧ next.Logs settings ends place due ∨
        noted.level ≠ .debug ∧ due = [noted.line] ∧ next.Logs settings ends place [] := by
  rw [Logs]
  by_cases hdebug : noted.level = .debug <;> simp [hdebug]

theorem Logs.mono {program : Program α} {ends wider : α → Place → Prop}
    (h : program.Logs settings ends place due)
    (within : ∀ result place, ends result place → wider result place) :
    program.Logs settings wider place due := by
  induction program generalizing place due with
  | done result => exact ⟨h.1, within result place h.2⟩
  | ask call next ih => exact ⟨h.1, fun answer => ih answer (h.2 answer)⟩
  | note noted next ih =>
    refine logs_note_iff.2 ((logs_note_iff.1 h).imp ?_ ?_)
    · exact fun ⟨hdebug, hnext⟩ => ⟨hdebug, ih hnext⟩
    · exact fun ⟨hlevel, hdue, hnext⟩ => ⟨hlevel, hdue, ih hnext⟩

theorem Logs.andThen {program : Program α} {next : α → Program β} {middle : α → Place → Prop}
    {ends : β → Place → Prop} (first : program.Logs settings middle place due)
    (second : ∀ a place, middle a place → (next a).Logs settings ends place []) :
    (program.andThen next).Logs settings ends place due := by
  induction program generalizing place due with
  | done a =>
    obtain ⟨rfl, hmiddle⟩ := first
    exact second a place hmiddle
  | ask call rest ih => exact ⟨first.1, fun answer => ih answer (first.2 answer)⟩
  | note noted rest ih =>
    refine logs_note_iff.2 ((logs_note_iff.1 first).imp ?_ ?_)
    · exact fun ⟨hdebug, hrest⟩ => ⟨hdebug, ih hrest⟩
    · exact fun ⟨hlevel, hdue, hrest⟩ => ⟨hlevel, hdue, ih hrest⟩

/-- The lines of a trace are those that are due. -/
theorem Logs.lines_eq {program : Program α} {ends : α → Place → Prop} {trace : List Exchange}
    {result : α} (logs : program.Logs settings ends place due)
    (yields : program.Yields trace result) :
    lines trace = due ++ settings.linesFrom place trace := by
  induction yields generalizing place due with
  | done result =>
    obtain ⟨rfl, -⟩ := logs
    rfl
  | query _ ih | probe _ ih | read _ ih | write _ ih =>
    obtain ⟨rfl, hnext⟩ := logs
    exact ih (hnext _)
  | @note noted next trace result _ ih =>
    rcases logs_note_iff.1 logs with ⟨hdebug, hnext⟩ | ⟨hlevel, rfl, hnext⟩
    · simpa [lines, hdebug, Settings.linesFrom, Place.lines, Place.warning?, Place.after,
        isRecording] using ih hnext
    · simpa [lines, hlevel, Settings.linesFrom, Place.lines, Place.warning?, Place.after,
        isRecording] using ih hnext

end Program

/-! ### Attempts -/

namespace Attempt

variable {settings : Settings} {place : Place} {due : List Line}

theorem logs_bind {attempt : Attempt α} {next : α → Attempt β}
    {middle : Except Failure α → Place → Prop} {ends : Except Failure β → Place → Prop}
    (first : attempt.run.Logs settings middle place due)
    (failed : ∀ failure place, middle (.error failure) place → ends (.error failure) place)
    (second : ∀ a place, middle (.ok a) place → (next a).run.Logs settings ends place []) :
    (attempt >>= next).run.Logs settings ends place due := by
  rw [run_bind]
  refine first.andThen fun result place hmiddle => ?_
  cases result with
  | error failure => exact ⟨rfl, failed failure place hmiddle⟩
  | ok a => exact second a place hmiddle

theorem logs_lift {program : Program α} {ends : Except Failure α → Place → Prop}
    (h : program.Logs settings (fun a place => ends (.ok a) place) place due) :
    (liftM program : Attempt α).run.Logs settings ends place due := by
  rw [run_lift]
  exact h.andThen fun a place hends => ⟨rfl, hends⟩

end Attempt

/-! ## Examinations -/

namespace Settings

variable {settings : Settings} {place : Place}

/-- A search that may still look at `remaining` sub-leaves; with none left it is due the warning. -/
theorem logs_searchMemory {remaining : Nat} (asked : Nat) (subleaf : UInt32)
    (left : asked + remaining = settings.subleafCap.toNat + 3) :
    (Support.searchMemory settings.subleafCap remaining subleaf).Logs settings
      (fun _ place => ∃ asked, place = .examining asked) (.examining asked)
      (if remaining = 0 then [Event.line (.enumerationCapped settings.subleafCap)] else []) := by
  induction remaining generalizing asked subleaf with
  | zero => exact Program.logs_note_iff.2 (.inr ⟨nofun, rfl, rfl, asked, rfl⟩)
  | succ remaining ih =>
    refine ⟨rfl, fun registers => ?_⟩
    simp only [Program.andThen, Call.exchange]
    rw [Place.after_query (by decide)]
    cases hvalid : registers.isValidSection with
    | false =>
      rw [Place.lines_sound (by simp [hvalid])]
      exact Program.logs_note_iff.2 (.inl ⟨rfl, rfl, _, rfl⟩)
    | true =>
      cases hmemory : registers.hasMemory with
      | true =>
        rw [Place.lines_sound (by simp [hmemory])]
        exact Program.logs_note_iff.2 (.inl ⟨rfl, rfl, _, rfl⟩)
      | false =>
        have hrest := ih (asked + 1) (subleaf + 1) (by omega)
        by_cases hnone : remaining = 0
        · -- This was the last sub-leaf under the cap.
          obtain rfl : asked = settings.subleafCap.toNat + 2 := by omega
          rw [if_pos hnone] at hrest
          rw [Place.lines_capped hvalid hmemory]
          exact hrest
        · rw [if_neg hnone] at hrest
          rw [Place.lines_sound (by simp; omega)]
          exact hrest

theorem logs_examineActivity :
    (Support.examineActivity settings.subleafCap).Logs settings
      (fun _ place => ∃ asked, place = .examining asked) (.examining 2) [] := by
  have hcap : settings.subleafCap.toNat ≠ 0 := by
    simpa [← UInt32.toNat_inj] using settings.defectless.2
  refine ⟨rfl, fun registers => ?_⟩
  simp only [Program.andThen, Call.exchange]
  rw [Place.after_query (by decide), Place.lines_sound (by simp; omega)]
  split
  · exact Program.logs_note_iff.2 (.inl ⟨rfl, rfl, _, rfl⟩)
  · split
    · exact Program.logs_note_iff.2 (.inl ⟨rfl, rfl, _, rfl⟩)
    · have hsearch : (Support.searchMemory settings.subleafCap settings.subleafCap.toNat
          firstMemorySubleaf).Logs settings _ (.examining 3) _ :=
        logs_searchMemory 3 firstMemorySubleaf (Nat.add_comm _ _)
      rw [if_neg hcap] at hsearch
      exact hsearch

theorem logs_examineFeature :
    Support.examineFeature.Logs settings
      (fun supported place => (∃ asked, place = .examining asked) ∧
        (supported = true → place = .examining 2)) place [] := by
  refine ⟨rfl, fun vendor => ?_⟩
  simp only [Program.andThen, Call.exchange]
  rw [Place.after_vendor, Place.lines_query (by decide)]
  split
  · refine ⟨rfl, fun features => ?_⟩
    simp only [Program.andThen, Call.exchange]
    rw [Place.after_query (by decide), Place.lines_query (by decide)]
    exact ⟨rfl, ⟨2, rfl⟩, fun _ => rfl⟩
  · exact ⟨rfl, ⟨1, rfl⟩, fun h => by cases h⟩

/-- An examination can begin anywhere, and nothing else is called before it is over. -/
theorem logs_examineProcessor :
    settings.examineProcessor.Logs settings (fun _ place => ∃ asked, place = .examining asked)
      place [] := by
  refine logs_examineFeature.andThen fun supported place hplace => ?_
  cases supported with
  | false => exact Program.logs_note_iff.2 (.inl ⟨rfl, rfl, hplace.1⟩)
  | true =>
    obtain rfl := hplace.2 rfl
    exact logs_examineActivity.andThen fun active place hplace => ⟨rfl, hplace⟩

/-- An attempt that begins with an examination goes on right behind its last query. -/
theorem logs_examined {next : Support → Attempt β} {ends : Except Failure β → Place → Prop}
    (second : ∀ support asked, (next support).run.Logs settings ends (.examining asked) []) :
    (liftM settings.examineProcessor >>= next : Attempt β).run.Logs settings ends place [] := by
  rw [Attempt.run_bind, Attempt.run_lift, Program.andThen_assoc]
  refine logs_examineProcessor.andThen fun support place hplace => ?_
  obtain ⟨asked, rfl⟩ := hplace
  exact second support asked

/-! ## Classifications -/

/-- A probe for existence that is not the one of the system partition. -/
theorem logs_exists? {path : Path} {refusal : String} (other : place ≠ .bootless) :
    (exists? path refusal).run.Logs settings
      (fun result behind => ∃ presence, result = judge path refusal presence ∧
        behind = place.after settings.locations (.probe path presence)) place [] := by
  rw [run_exists?]
  refine ⟨rfl, fun presence => ?_⟩
  cases presence with
  | present => exact ⟨rfl, .present, rfl, rfl⟩
  | absent => exact ⟨rfl, .absent, rfl, rfl⟩
  | denied =>
    exact Program.logs_note_iff.2
      (.inr ⟨nofun, Place.lines_denied other, rfl, .denied, rfl, rfl⟩)
  | failed reason =>
    exact Program.logs_note_iff.2
      (.inr ⟨nofun, Place.lines_failed other, rfl, .failed reason, rfl, rfl⟩)

/-- Without a firmware directory, the system partition is probed at the place where its warnings
are told apart. -/
theorem logs_classifyLegacy :
    settings.classifyLegacy.Logs settings (fun _ _ => True) .bootless [] := by
  refine ⟨rfl, fun presence => ?_⟩
  cases presence with
  | present => exact ⟨rfl, trivial⟩
  | absent => exact ⟨rfl, trivial⟩
  | denied =>
    exact Program.logs_note_iff.2
      (.inr ⟨nofun, Place.lines_partition_denied, rfl, trivial⟩)
  | failed reason =>
    exact Program.logs_note_iff.2
      (.inr ⟨nofun, Place.lines_partition_failed, rfl, trivial⟩)

/-- What is noted on one of two ways, and is a detail. -/
theorem logs_noted {condition : Bool} {event : Event} {next : Unit → Attempt β}
    {ends : Except Failure β → Place → Prop} (detail : event.level = .debug)
    (h : (next ()).run.Logs settings ends place []) :
    (if condition = true then Attempt.log event >>= next else next ()).run.Logs settings ends
      place [] := by
  cases condition with
  | false => exact h
  | true => exact Program.logs_note_iff.2 (.inl ⟨detail, h⟩)

theorem Place.after_probe_elsewhere {locations : Locations} {path : Path} (presence : Presence) :
    Place.elsewhere.after locations (.probe path presence) = .elsewhere := by
  cases presence <;> rfl

theorem logs_holds? {path : Path} {next : Bool → Attempt β}
    {ends : Except Failure β → Place → Prop}
    (failed : ∀ failure, ends (.error failure) .elsewhere)
    (second : ∀ found, (next found).run.Logs settings ends .elsewhere []) :
    (holds? path >>= next).run.Logs settings ends .elsewhere [] := by
  refine Attempt.logs_bind (logs_exists? (by decide)) ?_ ?_
  · rintro failure place ⟨presence, -, rfl⟩
    rw [Place.after_probe_elsewhere]
    exact failed failure
  · rintro found place ⟨presence, -, rfl⟩
    rw [Place.after_probe_elsewhere]
    exact second found

theorem logs_classifyVariables :
    settings.classifyVariables.run.Logs settings (fun _ _ => True) .elsewhere [] := by
  unfold classifyVariables
  refine logs_holds? (fun _ => trivial) fun directory => logs_noted rfl ?_
  refine logs_holds? (fun _ => trivial) fun offered => ?_
  cases offered with
  | false => exact Program.logs_note_iff.2 (.inl ⟨rfl, rfl, trivial⟩)
  | true =>
    refine logs_holds? (fun _ => trivial) fun requested => ?_
    cases requested <;> exact ⟨rfl, trivial⟩

theorem logs_classify :
    settings.classify.run.Logs settings (fun _ _ => True) place [] := by
  refine logs_examined fun support asked => ?_
  obtain ⟨supported, active⟩ := support
  cases supported with
  | false => exact ⟨rfl, trivial⟩
  | true =>
    cases active with
    | true => exact ⟨rfl, trivial⟩
    | false =>
      refine Attempt.logs_bind (logs_exists? (by simp)) (fun _ _ _ => trivial) ?_
      rintro found place ⟨presence, hfound, rfl⟩
      obtain rfl := judge_ok hfound.symm
      cases found with
      | true => exact logs_classifyVariables
      | false =>
        have hplace : (Place.examining asked).after settings.locations
            (.probe settings.locations.efiRoot .absent) = .bootless := by simp [Place.after]
        show (liftM settings.classifyLegacy : Attempt Status).run.Logs settings _
          ((Place.examining asked).after settings.locations
            (.probe settings.locations.efiRoot .absent)) []
        rw [hplace]
        exact Attempt.logs_lift logs_classifyLegacy

/-! ## Operations -/

/-- Taking up an offer warns of nothing, and tells that the request was recorded if it was. -/
theorem logs_takeUpOffer :
    settings.takeUpOffer.run.Logs settings (fun _ _ => True) place [] := by
  simp only [takeUpOffer, Attempt.run_bind, Attempt.run_read, Attempt.run_ofExcept,
    Attempt.run_log, Attempt.run_write]
  refine ⟨rfl, fun delivered => ?_⟩
  cases delivered with
  | error failure => exact ⟨rfl, trivial⟩
  | ok bytes =>
    simp only [Program.andThen]
    cases Record.Offer.ofBytes bytes with
    | error failure => exact ⟨rfl, trivial⟩
    | ok offer =>
      refine Program.logs_note_iff.2 (.inl ⟨rfl, rfl, fun written => ?_⟩)
      cases written with
      | error failure => exact ⟨rfl, trivial⟩
      | ok done => exact Program.logs_note_iff.2 (.inr ⟨by decide, rfl, rfl, trivial⟩)

theorem logs_enable : settings.enable.run.Logs settings (fun _ _ => True) place [] := by
  refine Attempt.logs_bind logs_classify (fun _ _ _ => trivial) fun status place _ => ?_
  split
  · exact Attempt.logs_bind logs_takeUpOffer (fun _ _ _ => trivial) fun _ _ _ => ⟨rfl, trivial⟩
  · exact Program.logs_note_iff.2 (.inl ⟨rfl, rfl, trivial⟩)

theorem logs_isCapable : settings.isCapable.run.Logs settings (fun _ _ => True) place [] := by
  refine logs_examined fun support asked => ?_
  obtain ⟨supported, active⟩ := support
  cases supported with
  | false => exact ⟨rfl, trivial⟩
  | true =>
    cases active with
    | true => exact ⟨rfl, trivial⟩
    | false => exact (logs_exists? (by simp)).mono fun _ _ _ => trivial

theorem logs_concludeEnable :
    settings.concludeEnable.Logs settings (fun _ _ => True) place [] := by
  refine logs_enable.andThen fun result place _ => ?_
  split <;> exact ⟨rfl, trivial⟩

theorem logs_conclude (statusOnly : Bool) :
    (settings.conclude statusOnly).Logs settings (fun _ _ => True) place [] := by
  refine logs_classify.andThen fun result place _ => ?_
  split
  · exact ⟨rfl, trivial⟩
  · cases statusOnly with
    | true => exact ⟨rfl, trivial⟩
    | false => exact logs_concludeEnable
  · exact ⟨rfl, trivial⟩

theorem logs_evaluate (statusOnly : Bool) :
    (settings.evaluate statusOnly).Logs settings (fun _ _ => True) place [] := by
  refine logs_examineProcessor.andThen fun support place _ => ?_
  exact (logs_conclude statusOnly).andThen fun conclusion place _ => ⟨rfl, trivial⟩

end Settings

/-- Every operation notes the lines that its calls are due, and no other but details. -/
theorem Operation.logs (settings : Settings) (operation : Operation) :
    (operation.program settings).Logs settings (fun _ _ => True) .elsewhere [] := by
  cases operation with
  | classify => exact Settings.logs_classify.andThen fun _ _ _ => ⟨rfl, trivial⟩
  | enable => exact Settings.logs_enable.andThen fun _ _ _ => ⟨rfl, trivial⟩
  | isCapable => exact Settings.logs_isCapable.andThen fun _ _ _ => ⟨rfl, trivial⟩
  | examineProcessor => exact Settings.logs_examineProcessor.andThen fun _ _ _ => ⟨rfl, trivial⟩
  | evaluate statusOnly =>
    exact (Settings.logs_evaluate statusOnly).andThen fun _ _ _ => ⟨rfl, trivial⟩

/-! ## Logs of operations on a scripted store -/

/-- The texts that a trace has logged at a level. -/
def Exchange.logged (level : Level) (trace : List Exchange) : List String :=
  trace.filterMap fun
    | .event noted => if noted.level = level then some noted.text else none
    | _ => none

theorem Exchange.logged_eq {level : Level} (other : level ≠ .debug) (trace : List Exchange) :
    logged level trace = ((lines trace).filter (·.1 = level)).map Prod.snd := by
  unfold logged lines
  rw [List.filter_filterMap, List.map_filterMap]
  congr 1
  funext exchange
  cases exchange with
  | event noted =>
    by_cases hdebug : noted.level = .debug
    · simp [hdebug, other.symm]
    · by_cases hlevel : noted.level = level <;>
        simp [hlevel, hdebug, Event.line, Option.filter, other]
  | _ => rfl

theorem Exchange.filter_isRecording_calls (trace : List Exchange) :
    (calls trace).filter isRecording = trace.filter isRecording := by
  unfold calls
  rw [List.filter_filter]
  congr 1
  funext exchange
  cases exchange <;> simp [isCall, isRecording]

theorem Place.lines_warn (settings : Settings) (place : Place) (exchange : Exchange) :
    ((place.lines settings exchange).filter (·.1 = .warn)).map Prod.snd =
      (place.warning? settings exchange).toList := by
  unfold lines
  cases place.warning? settings exchange <;> cases exchange.isRecording <;> rfl

theorem Place.lines_info (settings : Settings) (place : Place) (exchange : Exchange) :
    ((place.lines settings exchange).filter (·.1 = .info)).map Prod.snd =
      if exchange.isRecording then
        ["Software enable requested, reboot to finish enabling SGX"]
      else [] := by
  unfold lines
  cases place.warning? settings exchange <;> cases exchange.isRecording <;> rfl

namespace Settings

variable {settings : Settings}

theorem warningsFrom_eq (place : Place) (trace : List Exchange) :
    settings.warningsFrom place trace =
      ((settings.linesFrom place trace).filter (·.1 = .warn)).map Prod.snd := by
  induction trace generalizing place with
  | nil => rfl
  | cons exchange rest ih =>
    rw [warningsFrom, linesFrom, List.filter_append, List.map_append, Place.lines_warn, ih]

theorem infos_eq (place : Place) (trace : List Exchange) :
    ((settings.linesFrom place trace).filter (·.1 = .info)).map Prod.snd =
      (trace.filter isRecording).map fun _ =>
        "Software enable requested, reboot to finish enabling SGX" := by
  induction trace generalizing place with
  | nil => rfl
  | cons exchange rest ih =>
    rw [linesFrom, List.filter_append, List.map_append, Place.lines_info, ih, List.filter_cons]
    cases exchange.isRecording <;> rfl

/-- Events are due nothing. -/
theorem warningsFrom_calls (place : Place) (trace : List Exchange) :
    settings.warningsFrom place (calls trace) = settings.warningsFrom place trace := by
  induction trace generalizing place with
  | nil => rfl
  | cons exchange rest ih =>
    cases exchange with
    | event noted => exact ih place
    | _ => exact congrArg (List.append _) (ih _)

end Settings

/-- The scripted store notes nothing. -/
theorem Scripted.silent (processor : Processor κ) (call : Call)
    (state : Machine.State κ Entries) :
    (Machine.reply ⟨processor, store⟩ state call).events = [] := by
  cases call with
  | query leaf subleaf => rfl
  | probe path =>
    show (state.store.probe path).events = []
    unfold Entries.probe
    split <;> rfl
  | read path length => rfl
  | write path bytes =>
    show (state.store.write path bytes).events = []
    rcases Entries.write_cases state.store path bytes with ⟨failure, hfailed⟩ | hdone
    · rw [hfailed]
    · rw [hdone]

/-- On a scripted store, the warnings of an operation are in order those that its calls are due:
one for each examination that exhausts its cap, and one for each probe that is refused or fails,
with a remark if it is the one of the system partition. The one informative line is there exactly
if a request was recorded. -/
theorem Operation.warnings_eq (settings : Settings) (processor : Processor κ)
    (operation : Operation) (state : Machine.State κ Scripted.Entries) :
    let trace := (Session.perform settings ⟨processor, Scripted.store⟩ operation state).1.trace
    logged .warn trace = settings.warningsDue (calls trace) ∧
    logged .info trace =
      if (calls trace).any isRecording then
        ["Software enable requested, reboot to finish enabling SGX"]
      else [] := by
  intro trace
  let machine : Machine κ Scripted.Entries := ⟨processor, Scripted.store⟩
  have hyields : (operation.program settings).Yields trace
      ((operation.program settings).run machine state).result :=
    Program.run_yields_of_silent
      (Program.asks_of_forall _ fun call state => Scripted.silent processor call state) state
  have hfollows := Program.run_follows machine (operation.program settings) state
  have hlines := (Operation.logs settings operation).lines_eq hyields
  rw [List.nil_append] at hlines
  constructor
  · rw [logged_eq (by decide), hlines, ← Settings.warningsFrom_eq]
    exact (Settings.warningsFrom_calls .elsewhere trace).symm
  · rw [logged_eq (by decide), hlines, Settings.infos_eq, ← filter_isRecording_calls]
    -- A recording is the last call of its operation, and the only one.
    rcases recorded_or hyields hfollows with ⟨hnone, -⟩ | ⟨earlier, bytes, hcalls, hearlier, -⟩
    · rw [List.filter_eq_nil_iff.2 (by simpa using hnone), if_neg (by simpa using hnone)]
      rfl
    · have hfilter : earlier.filter isRecording = [] :=
        List.filter_eq_nil_iff.2 (by simpa using hearlier.recordless)
      rw [hcalls, List.filter_append, hfilter, if_pos (by simp [isRecording])]
      rfl

end SgxActivation
