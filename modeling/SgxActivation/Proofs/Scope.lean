import Mathlib.Control.Monad.Basic
import SgxActivation.Session
import SgxActivation.Proofs.Examination
import SgxActivation.Proofs.Filesystem.Route

/-!
# What operations reach

* `Settings.isAbsolute_path` — the paths of an accepted configuration are absolute;
* `Settings.offer_ne_request` — the two firmware variables have paths of their own;
* **`Settings.Allows`** — the calls in scope: queries, probes of the five paths, the read
  of the offer and the write of the request;
* `Operation.asks_allowed` — no operation makes any other call.
-/

namespace SgxActivation

variable {α β : Type}

open Filesystem

namespace Settings

/-- No field of an accepted configuration has a defect. -/
theorem defectless (settings : Settings) :
    (∀ field, settings.config.pathDefect? field = none) ∧ settings.subleafCap ≠ 0 := by
  have haccepted := settings.accepted
  unfold Config.defect? at haccepted
  simp only [Option.orElse_eq_orElse, Option.orElse_eq_or, Option.or_eq_none_iff, beq_iff_eq,
    ite_eq_right_iff, reduceCtorEq, imp_false] at haccepted
  obtain ⟨hroot, hdirectory, hboot, hcap⟩ := haccepted
  refine ⟨fun field => ?_, hcap⟩
  cases field with
  | efiRoot => exact hroot
  | efivarsDir => exact hdirectory
  | bootEfi => exact hboot

/-- The path fields of an accepted configuration are absolute. -/
theorem isAbsolute_path (settings : Settings) (field : Config.PathField) :
    (settings.config.path field).isAbsolute = true := by
  have hpath := settings.defectless.1 field
  unfold Config.pathDefect? at hpath
  cases habsolute : (settings.config.path field).isAbsolute with
  | true => rfl
  | false =>
    simp only [habsolute, Bool.not_false, ↓reduceIte] at hpath
    split at hpath <;> cases hpath

theorem isAbsolute_offer (settings : Settings) : settings.locations.offer.isAbsolute = true :=
  Route.isAbsolute_join Route.plain_offerVariable (settings.isAbsolute_path .efivarsDir)

theorem isAbsolute_request (settings : Settings) :
    settings.locations.request.isAbsolute = true :=
  Route.isAbsolute_join Route.plain_requestVariable (settings.isAbsolute_path .efivarsDir)

theorem offer_ne_request (settings : Settings) :
    settings.locations.offer ≠ settings.locations.request := by
  intro heq
  have habsolute := settings.isAbsolute_path .efivarsDir
  have hoffer := Route.ofText_join Route.plain_offerVariable habsolute
  have hrequest := Route.ofText_join Route.plain_requestVariable habsolute
  have hroutes : Route.ofText settings.locations.offer.text =
      Route.ofText settings.locations.request.text := by rw [heq]
  -- Routes to the two end in different names.
  obtain ⟨-, hparts⟩ := Route.mk.inj (hoffer.symm.trans (hroutes.trans hrequest))
  obtain ⟨hname, -⟩ := List.cons.inj (List.append_cancel_left hparts)
  exact absurd (Part.name.inj hname) (by decide)

/-- The paths that operations look at. -/
def paths (settings : Settings) : List Path :=
  [settings.locations.efiRoot, settings.locations.efivarsDir, settings.locations.bootEfi,
    settings.locations.offer, settings.locations.request]

/-- The calls in scope. -/
def Allows (settings : Settings) : Call → Prop
  | .query .. => True
  | .probe path => path ∈ settings.paths
  | .read path length => path = settings.locations.offer ∧ length = Record.Offer.size
  | .write path _ => path = settings.locations.request

end Settings

/-- An event, or a call that is allowed. -/
def Exchange.Within (allowed : Call → Prop) : Exchange → Prop
  | .event _ => True
  | .query leaf subleaf _ => allowed (.query leaf subleaf)
  | .probe path _ => allowed (.probe path)
  | .read path length _ => allowed (.read path length)
  | .write path bytes _ => allowed (.write path bytes)

theorem Exchange.within_exchange {allowed : Call → Prop} {call : Call} (answer : call.Answer) :
    (call.exchange answer).Within allowed ↔ allowed call := by
  cases call <;> rfl

/-- A program that makes allowed calls only leaves no other calls behind. -/
theorem Program.Yields.within {allowed : Call → Prop} {program : Program α}
    {trace : List Exchange} {result : α} (yields : program.Yields trace result)
    (asks : program.Asks allowed) : ∀ exchange ∈ trace, exchange.Within allowed := by
  induction yields with
  | done result => simp
  | query h ih | probe h ih | read h ih | write h ih =>
    exact List.forall_mem_cons.2 ⟨asks.1, ih (asks.2 _)⟩
  | note h ih => exact List.forall_mem_cons.2 ⟨trivial, ih asks⟩

theorem Program.asks_map {allowed : Call → Prop} {program : Program α} (f : α → β)
    (h : program.Asks allowed) : (f <$> program).Asks allowed := by
  rw [Program.map_eq]
  exact h.andThen fun _ => trivial

theorem Attempt.asks_bind {allowed : Call → Prop} {attempt : Attempt α} {next : α → Attempt β}
    (first : attempt.run.Asks allowed) (second : ∀ a, (next a).run.Asks allowed) :
    (attempt >>= next).run.Asks allowed := by
  rw [run_bind]
  refine first.andThen fun result => ?_
  cases result with
  | error failure => trivial
  | ok a => exact second a

theorem Attempt.asks_lift {allowed : Call → Prop} {program : Program α}
    (h : program.Asks allowed) : (liftM program : Attempt α).run.Asks allowed := by
  rw [run_lift]
  exact h.andThen fun _ => trivial

/-- What is noted on one of two ways asks for nothing. -/
theorem Attempt.asks_noted {allowed : Call → Prop} {condition : Bool} {event : Event}
    {next : Unit → Attempt β} (h : (next ()).run.Asks allowed) :
    (if condition = true then log event >>= next else next ()).run.Asks allowed := by
  cases condition with
  | false => exact h
  | true => exact Attempt.asks_bind trivial fun _ => h

namespace Settings

variable {settings : Settings}

theorem asks_examineProcessor : settings.examineProcessor.Asks settings.Allows := by
  refine (Support.asks_examine _).mono fun call hquery => ?_
  cases call with
  | query leaf subleaf => trivial
  | _ => cases hquery

theorem asks_exists? {path : Path} {refusal : String} (member : path ∈ settings.paths) :
    (exists? path refusal).run.Asks settings.Allows := by
  rw [run_exists?]
  refine ⟨member, fun presence => ?_⟩
  cases presence <;> trivial

theorem asks_classifyLegacy : settings.classifyLegacy.Asks settings.Allows := by
  refine ⟨by simp [Allows, paths], fun presence => ?_⟩
  cases presence <;> trivial

theorem asks_holds? {path : Path} (member : path ∈ settings.paths) :
    (holds? path).run.Asks settings.Allows := asks_exists? member

theorem asks_classifyVariables : settings.classifyVariables.run.Asks settings.Allows := by
  unfold classifyVariables
  refine Attempt.asks_bind (asks_holds? (by simp [paths])) fun directory => Attempt.asks_noted ?_
  refine Attempt.asks_bind (asks_holds? (by simp [paths])) fun offered => ?_
  cases offered with
  | false => trivial
  | true =>
    refine Attempt.asks_bind (asks_holds? (by simp [paths])) fun requested => ?_
    cases requested <;> trivial

theorem asks_classify : settings.classify.run.Asks settings.Allows := by
  refine Attempt.asks_bind (Attempt.asks_lift asks_examineProcessor) fun support => ?_
  obtain ⟨supported, active⟩ := support
  cases supported with
  | false => trivial
  | true =>
    cases active with
    | true => trivial
    | false =>
      refine Attempt.asks_bind (asks_exists? (by simp [paths])) fun found => ?_
      cases found with
      | true => exact asks_classifyVariables
      | false => exact Attempt.asks_lift asks_classifyLegacy

theorem asks_takeUpOffer : settings.takeUpOffer.run.Asks settings.Allows := by
  refine Attempt.asks_bind ⟨⟨rfl, rfl⟩, fun _ => trivial⟩ fun bytes => ?_
  refine Attempt.asks_bind ?_ fun offer => ?_
  · rw [Attempt.run_ofExcept]
    trivial
  · exact Attempt.asks_bind trivial fun _ =>
      Attempt.asks_bind ⟨rfl, fun _ => trivial⟩ fun _ => trivial

theorem asks_enable : settings.enable.run.Asks settings.Allows := by
  refine Attempt.asks_bind asks_classify fun status => ?_
  split
  · exact Attempt.asks_bind asks_takeUpOffer fun _ => trivial
  · exact Attempt.asks_bind trivial fun _ => trivial

theorem asks_isCapable : settings.isCapable.run.Asks settings.Allows := by
  refine Attempt.asks_bind (Attempt.asks_lift asks_examineProcessor) fun support => ?_
  obtain ⟨supported, active⟩ := support
  cases supported with
  | false => trivial
  | true =>
    cases active with
    | true => trivial
    | false => exact asks_exists? (by simp [paths])

theorem asks_concludeEnable : settings.concludeEnable.Asks settings.Allows := by
  refine asks_enable.andThen fun result => ?_
  split <;> trivial

theorem asks_evaluate (statusOnly : Bool) :
    (settings.evaluate statusOnly).Asks settings.Allows := by
  refine asks_examineProcessor.andThen fun support => ?_
  refine Program.Asks.andThen ?_ fun conclusion => trivial
  refine asks_classify.andThen fun result => ?_
  split
  · trivial
  · cases statusOnly with
    | true => trivial
    | false => exact asks_concludeEnable
  · trivial

end Settings

/-- No operation makes a call out of scope, whatever it is answered. -/
theorem Operation.asks_allowed (settings : Settings) (operation : Operation) :
    (operation.program settings).Asks settings.Allows := by
  cases operation with
  | classify => exact Program.asks_map _ Settings.asks_classify
  | enable => exact Program.asks_map _ Settings.asks_enable
  | isCapable => exact Program.asks_map _ Settings.asks_isCapable
  | examineProcessor => exact Program.asks_map _ Settings.asks_examineProcessor
  | evaluate statusOnly => exact Program.asks_map _ (Settings.asks_evaluate statusOnly)

end SgxActivation
