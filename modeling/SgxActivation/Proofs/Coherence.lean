import SgxActivation.Proofs.Enumeration
import SgxActivation.Proofs.StoreCalls
import SgxActivation.Proofs.Enabling
import SgxActivation.Proofs.ScriptedStore

/-!
# Reports are coherent

A report is put together from up to three examinations of the processor and two walks over
the firmware's files, and the store may answer differently each time. On a fixed processor
its parts agree all the same.

* **`Support.Tells`** — what an examination found accounts for the statuses of the processor,
  and for no others; this holds of every classification, enable and conclusion
  (`Classified.tells`, `Enabling.tells`, `Concluded.tells`);
* **`Report.Coherent`** — the relations between the parts of a report and its trace;
* `Settings.evaluate_coherent` — every report is coherent, whatever the store does.
-/

namespace SgxActivation

variable {κ σ : Type}

open Exchange

/-! ## Any report -/

namespace Report

/-- A report has a status or the code of a failure, and never both. -/
theorem status?_eq_none {report : Report} :
    report.status? = none ↔ report.errorCode? ≠ none := by
  unfold status? errorCode?
  cases report.conclusion <;> simp

theorem exitCode_eq_zero {report : Report} :
    report.exitCode = 0 ↔
      report.status? = some .enabled ∨ report.status? = some .rebootRequired := by
  unfold exitCode
  cases report.status? with
  | none => simp
  | some status => cases status <;> simp [Status.exitCode, Status.isEnabledOrPending]

theorem enablePerformed_iff_requested {report : Report} :
    report.enablePerformed = true ↔ report.conclusion = .requested := by
  unfold enablePerformed
  cases report.conclusion <;> simp

/-- The parts of a report agree with each other and with what was asked of the store. -/
structure Coherent (report : Report) (statusOnly : Bool) (trace : List Exchange) : Prop where
  supported_of_active : report.support.active = true → report.support.supported = true
  unsupported_iff :
    report.status? = some .unsupportedProcessor ↔ report.support.supported = false
  enabled_iff : report.status? = some .enabled ↔ report.support.active = true
  quiet : report.support.supported = false ∨ report.support.active = true →
    storeCalls trace = []
  status_or_error : report.status? = none ↔ report.errorCode? ≠ none
  statusCode : report.statusCode? = report.status?.map Status.code
  exitCode_eq_zero : report.exitCode = 0 ↔
    report.status? = some .enabled ∨ report.status? = some .rebootRequired
  performed : report.enablePerformed = true →
    report.status? = some .rebootRequired ∧ statusOnly = false
  tried : statusOnly = false → report.status? ≠ some .interfaceAvailable
  looks : statusOnly = true → ∀ exchange ∈ calls trace, exchange.isLook = true

/-- Events are no part of what a report agrees with. -/
theorem Coherent.congr {statusOnly : Bool} {trace other : List Exchange} {report : Report}
    (h : report.Coherent statusOnly trace) (same : calls trace = calls other) :
    report.Coherent statusOnly other :=
  { h with
    quiet := fun decided => storeCalls_congr same ▸ h.quiet decided
    looks := fun honly => same ▸ h.looks honly }

end Report

/-! ## The statuses of the processor -/

/-- Where a platform stands accounts for what was found of its processor: one status is that
of a processor without enclaves, one that of an active processor. -/
structure Support.Tells (support : Support) (status? : Option Status) : Prop where
  unsupported_iff : status? = some .unsupportedProcessor ↔ support.supported = false
  enabled_iff : status? = some .enabled ↔ support.active = true

/-- Once the firmware was found to accept a request, the processor decides nothing more. -/
theorem Support.Tells.of_available {support : Support} {status? : Option Status}
    (h : support.Tells (some .interfaceAvailable))
    (supported : status? ≠ some .unsupportedProcessor) (inactive : status? ≠ some .enabled) :
    support.Tells status? where
  unsupported_iff := iff_of_false supported fun hsupport => by
    cases h.unsupported_iff.2 hsupport
  enabled_iff := iff_of_false inactive fun hactive => by cases h.enabled_iff.2 hactive

/-- What the processor decides leaves no offer to take up. -/
theorem Support.Tells.not_available {support : Support} {status? : Option Status}
    (h : support.Tells status?) (decided : support.supported = false ∨ support.active = true) :
    status? ≠ some .interfaceAvailable := by
  rintro rfl
  rcases decided with hunsupported | hactive
  · cases h.unsupported_iff.2 hunsupported
  · cases h.enabled_iff.2 hactive

namespace Settings

variable {settings : Settings} {machine : Machine κ σ} {state last : Machine.State κ σ}
  {trace walk rest : List Exchange} {support : Support} {statusOnly : Bool}
  {classified result : Except Failure Status} {conclusion : Conclusion}

theorem Walk.tells (h : Walk settings walk result) :
    Support.Tells ⟨true, false⟩ result.toOption := by
  constructor
  all_goals
    cases h with
    | legacy presence => cases presence <;> simp [Except.toOption]
    | _ => simp [Except.toOption]

theorem Classified.tells (h : Classified settings support walk result)
    (supported : support.active = true → support.supported = true) :
    support.Tells result.toOption := by
  cases h with
  | unsupported hsupported =>
    have hinactive : ¬ support.active = true := fun hactive => by
      cases hsupported.symm.trans (supported hactive)
    exact ⟨iff_of_true rfl hsupported, iff_of_false (by simp [Except.toOption]) hinactive⟩
  | enabled hsupported hactive =>
    exact ⟨iff_of_false (by simp [Except.toOption]) (by simp [hsupported]),
      iff_of_true rfl hactive⟩
  | walked hwalk => exact hwalk.tells

/-- Where the processor decides, no walk is taken. -/
theorem Classified.quiet (h : Classified settings support walk result)
    (decided : support.supported = false ∨ support.active = true) : walk = [] := by
  cases h with
  | unsupported | enabled => rfl
  | walked => simp at decided

theorem Enabling.tells (h : Enabling settings classified rest result)
    (tells : support.Tells classified.toOption) : support.Tells result.toOption := by
  cases h with
  | failed | settled => exact tells
  | @attempted _ taken =>
    refine Support.Tells.of_available tells ?_ ?_
    all_goals cases taken <;> simp [Except.map, Except.toOption]

/-- An enable leaves no offer standing. -/
theorem Enabling.result_ne (h : Enabling settings classified rest result) :
    result ≠ .ok .interfaceAvailable := by
  cases h with
  | failed => simp
  | settled hother => simpa using hother
  | @attempted _ taken => cases taken <;> simp [Except.map]

theorem Concluded.tells (h : Concluded settings statusOnly classified rest conclusion)
    (tells : support.Tells classified.toOption)
    (enabling : ∀ result, settings.enable.run.Yields rest result → support.Tells result.toOption) :
    support.Tells (Report.status? ⟨support, conclusion⟩) := by
  cases h with
  | failed | settled => exact tells
  | requested => exact tells.of_available (by simp [Report.status?]) (by simp [Report.status?])
  | overtaken _ _ henable => exact enabling _ henable
  | refused =>
    exact tells.of_available (by simp [concludeFailure, Report.status?])
      (by simp [concludeFailure, Report.status?])

/-- A classification asks the store for nothing where the processor decides, and tells what
every examination finds. -/
theorem tells_classify (finds : settings.Finds machine support)
    (supported : support.active = true → support.supported = true)
    (yields : settings.classify.run.Yields trace result)
    (follows : machine.Follows state trace last) :
    support.Tells result.toOption ∧
      (support.supported = false ∨ support.active = true → storeCalls trace = []) := by
  obtain ⟨examination, walk, hexamination, rfl, hclassified⟩ := finds.classified yields follows
  refine ⟨hclassified.tells supported, fun decided => ?_⟩
  rw [storeCalls_append, storeCalls_examineProcessor hexamination,
    storeCalls_of_calls (hclassified.quiet decided)]
  rfl

theorem tells_enable (finds : settings.Finds machine support)
    (supported : support.active = true → support.supported = true)
    (yields : settings.enable.run.Yields trace result)
    (follows : machine.Follows state trace last) : support.Tells result.toOption := by
  obtain ⟨first, classified, rest, hfirst, rfl, henabling⟩ := yields_enable yields
  obtain ⟨middle, hclassifying, -⟩ := Machine.follows_append.1 follows
  exact henabling.tells (tells_classify finds supported hfirst hclassifying).1

/-! ## Coherence -/

/-- What is concluded from an offer that was found ends the matter, except in a report that
only wants the status. -/
theorem Concluded.tried (h : Concluded settings statusOnly classified rest conclusion)
    (wanted : statusOnly = false) :
    Report.status? ⟨support, conclusion⟩ ≠ some .interfaceAvailable := by
  cases h with
  | failed | refused => simp [concludeFailure, Report.status?]
  | requested => simp [Report.status?]
  | settled honly =>
    intro heq
    cases wanted.symm.trans (honly (Option.some.inj heq))
  | overtaken _ _ henable =>
    obtain ⟨first, classified, rest, -, rfl, henabling⟩ := yields_enable henable
    intro heq
    exact henabling.result_ne (congrArg Except.ok (Option.some.inj heq))

/-- A report says that it performed the enable only where it wanted to. -/
theorem Concluded.wanted (h : Concluded settings statusOnly classified rest .requested) :
    statusOnly = false := by
  cases h with
  | requested hwanted => exact hwanted

/-- Where every examination finds the same, a report is coherent. -/
theorem coherent_of_finds (finds : settings.Finds machine support) {report : Report}
    (yields : (settings.evaluate statusOnly).Yields trace report)
    (follows : machine.Follows state trace last) :
    report.support = support ∧ report.Coherent statusOnly trace := by
  obtain ⟨found, conclusion⟩ := report
  obtain ⟨examination, first, classified, rest, hexamination, hfirst, rfl, hconcluded⟩ :=
    yields_evaluate yields
  obtain ⟨examined, hexamining, hfollowing⟩ := Machine.follows_append.1 follows
  obtain ⟨middle, hclassifying, hfollowing⟩ := Machine.follows_append.1 hfollowing
  obtain rfl : found = support := finds _ _ _ _ hexamination hexamining
  have hsupported : found.active = true → found.supported = true :=
    (Support.yields_examine hexamination).supported_of_active
  obtain ⟨htells, hquiet⟩ := tells_classify finds hsupported hfirst hclassifying
  have hstatus : found.Tells (Report.status? ⟨found, conclusion⟩) :=
    hconcluded.tells htells fun result henable =>
      tells_enable finds hsupported henable hfollowing
  refine ⟨rfl, ?_⟩
  exact
    { supported_of_active := hsupported
      unsupported_iff := hstatus.unsupported_iff
      enabled_iff := hstatus.enabled_iff
      quiet := fun decided => by
        have hother : classified ≠ .ok .interfaceAvailable := by
          rintro rfl
          exact htells.not_available decided rfl
        rw [hconcluded.rest_eq_nil (.inr hother), storeCalls_append, storeCalls_append,
          storeCalls_examineProcessor hexamination, hquiet decided]
        rfl
      status_or_error := Report.status?_eq_none
      statusCode := rfl
      exitCode_eq_zero := Report.exitCode_eq_zero
      performed := fun hperformed => by
        obtain rfl : conclusion = .requested := Report.enablePerformed_iff_requested.1 hperformed
        exact ⟨rfl, hconcluded.wanted⟩
      tried := hconcluded.tried
      looks := fun honly => by
        subst honly
        exact yields_evaluate_looks yields }

/-- On a fixed processor, every report tells what the processor supports and is coherent,
whatever the store does, and however its answers change on the way. -/
theorem evaluate_coherent (settings : Settings) (machine : Machine κ σ)
    (fixed : machine.processor.Fixed) (statusOnly : Bool) (state : Machine.State κ σ) :
    let execution := (settings.evaluate statusOnly).run machine state
    (∀ start, (settings.examineProcessor.run machine start).result = execution.result.support) ∧
      execution.result.Coherent statusOnly execution.trace := by
  intro execution
  obtain ⟨trace, hyields, hfollows, hcalls⟩ :=
    (settings.evaluate statusOnly).exists_yields_follows machine state
  have hcoherent start := coherent_of_finds (finds_of_fixed fixed start) hyields hfollows
  exact ⟨fun start => (hcoherent start).1.symm, (hcoherent state).2.congr hcalls⟩

/-- The stock platform, except that the offer may not be looked at a second time. -/
def withdrawn : Machine.State Nat Scripted.Entries :=
  ⟨0, (Scripted.offering {}).insert (Locations.offer {}) { probes := [.present, .denied] }⟩

/-- The report of an enable whose own classification is refused: of its two walks the first
finds an offer, and the second one fails. It has no status, yet it is coherent. -/
theorem evaluate_coherent_withdrawn :
    let execution := (Settings.stock.evaluate false).run Scripted.stockMachine withdrawn
    execution.result.errorCode? = some 0x5002 ∧
      (storeCalls execution.trace).length = 7 ∧
      execution.result.Coherent false execution.trace := by
  have fixed : Scripted.stockMachine.processor.Fixed := fun _ _ _ _ => rfl
  refine ⟨by decide +kernel, by decide +kernel, ?_⟩
  exact (evaluate_coherent Settings.stock Scripted.stockMachine fixed false withdrawn).2

end Settings

end SgxActivation
