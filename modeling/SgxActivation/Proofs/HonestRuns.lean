import Mathlib.Data.List.Forall2
import SgxActivation.Proofs.Enabling
import SgxActivation.Proofs.HonestStore
import SgxActivation.Proofs.Sessions

/-!
# Operations on honest stores

On an honest store whose writes do not fail, what an operation comes to is determined by
what exists and by what the processor supports, up to the wording of an unexpected
failure. That makes any two such stores **alike**.

* `Settings.statusOn` — the status of a platform, told by a view;
* **`Settings.EnablesOn`**, **`Operation.Behaves`** — what an enable and any operation come
  to on a view, and the view afterwards;
* `Honest.behaves` — operations behave so on every honest and obliging store;
* **`Outcome.Alike`** — equal but for the wording of an unexpected failure;
* `Session.alike` — sessions on two stores with one view are alike, step by step.
-/

namespace SgxActivation

variable {κ σ τ : Type}

open Exchange Record

namespace Settings

/-- Where a platform stands on which these files exist. -/
def statusOn (settings : Settings) (view : View) (support : Support) : Status :=
  if !support.supported then .unsupportedProcessor
  else if support.active then .enabled
  else if (view settings.locations.efiRoot).isSome then
    if (view settings.locations.offer).isSome then
      if (view settings.locations.request).isSome then .rebootRequired else .interfaceAvailable
    else .manualEnableRequired
  else if (view settings.locations.bootEfi).isSome then .disabled
  else .legacyBoot

/-- Whether enclaves work on it, or could after a software enable. -/
def capableOn (settings : Settings) (view : View) (support : Support) : Bool :=
  support.supported && (support.active || (view settings.locations.offer).isSome)

/-- What an enable comes to, and what exists afterwards. -/
inductive EnablesOn (settings : Settings) (view : View) (support : Support) :
    Except Failure Status → View → Prop
  | settled : settings.statusOn view support ≠ .interfaceAvailable →
      EnablesOn settings view support (.ok (settings.statusOn view support)) view
  | unread (detail) : settings.statusOn view support = .interfaceAvailable →
      view.front? settings.locations.offer Offer.size = none →
      EnablesOn settings view support (.error ⟨.unexpected, detail⟩) view
  | recorded {record} : settings.statusOn view support = .interfaceAvailable →
      view.front? settings.locations.offer Offer.size = some record →
      EnablesOn settings view support (.ok .rebootRequired)
        (view.put settings.locations.request (requestBytes record))

/-- What is concluded from an enable after the firmware was found to accept a request. -/
def concludedFrom : Except Failure Status → Conclusion
  | .ok .rebootRequired => .requested
  | .ok other => .settled other
  | .error failure => concludeFailure Failure.enableExplanation failure

theorem concludedFrom_of_ne {status : Status} (other : status ≠ .rebootRequired) :
    concludedFrom (.ok status) = .settled status := by
  cases status with
  | rebootRequired => exact absurd rfl other
  | _ => rfl

end Settings

/-- What an operation comes to, and what exists afterwards. -/
inductive Operation.Behaves (settings : Settings) (view : View) (support : Support) :
    Operation → Outcome → View → Prop
  | classify :
      Behaves settings view support .classify (.status (.ok (settings.statusOn view support))) view
  | enable {result after} : settings.EnablesOn view support result after →
      Behaves settings view support .enable (.status result) after
  | isCapable :
      Behaves settings view support .isCapable
        (.capable (.ok (settings.capableOn view support))) view
  | examineProcessor : Behaves settings view support .examineProcessor (.support support) view
  | examined {statusOnly} :
      (settings.statusOn view support = .interfaceAvailable → statusOnly = true) →
      Behaves settings view support (.evaluate statusOnly)
        (.report ⟨support, .settled (settings.statusOn view support)⟩) view
  | tried {result after} : settings.statusOn view support = .interfaceAvailable →
      settings.EnablesOn view support result after →
      Behaves settings view support (.evaluate false)
        (.report ⟨support, Settings.concludedFrom result⟩) after

namespace Settings

variable {settings : Settings} {view : View} {walk : List Exchange}
  {result : Except Failure Status}

theorem not_judge_presence {path : Path} {refusal : String} {failure : Failure} :
    judge path refusal (view.presence path) ≠ .error failure := by
  unfold View.presence
  split <;> simp [judge]

/-- A walk that is told by a view ends with the status of the view. -/
theorem Walk.statusOn (h : Walk settings walk result)
    (told : ∀ path presence, .probe path presence ∈ walk → presence = view.presence path) :
    result = .ok (settings.statusOn view ⟨true, false⟩) := by
  have hpresent : ∀ path, .probe path .present ∈ walk → (view path).isSome = true :=
    fun path member => View.presence_eq_present.1 (told path .present member).symm
  have habsent : ∀ path, .probe path .absent ∈ walk → (view path).isSome = false := by
    intro path member
    rw [View.presence_eq_absent.1 (told path .absent member).symm]
    rfl
  unfold Settings.statusOn
  -- A view refuses nothing, so none of the walks is blocked.
  cases h with
  | @rootBlocked presence failure hblocked =>
    rw [told settings.locations.efiRoot presence (by simp)] at hblocked
    exact absurd hblocked not_judge_presence
  | legacy presence =>
    have hroot := habsent settings.locations.efiRoot (by simp)
    have hpartition := told settings.locations.bootEfi presence (by simp)
    cases hboot : (view settings.locations.bootEfi).isSome with
    | true =>
      rw [View.presence_eq_present.2 hboot] at hpartition
      simp [hroot, hpartition]
    | false =>
      rw [View.presence_eq_absent.2 (by simpa using hboot)] at hpartition
      simp [hroot, hpartition]
  | @directoryBlocked presence failure hblocked =>
    rw [told settings.locations.efivarsDir presence (by simp [approach])] at hblocked
    exact absurd hblocked not_judge_presence
  | @offerBlocked seen presence failure hclear hblocked =>
    rw [told settings.locations.offer presence (by simp)] at hblocked
    exact absurd hblocked not_judge_presence
  | offerMissing hclear =>
    have hroot := hpresent settings.locations.efiRoot (by simp [approach])
    have hoffer := habsent settings.locations.offer (by simp)
    simp [hroot, hoffer]
  | @requestBlocked seen presence failure hclear hblocked =>
    rw [told settings.locations.request presence (by simp [fullWalk])] at hblocked
    exact absurd hblocked not_judge_presence
  | requestMissing hclear =>
    have hroot := hpresent settings.locations.efiRoot (by simp [fullWalk, approach])
    have hoffer := hpresent settings.locations.offer (by simp [fullWalk])
    have hrequest := habsent settings.locations.request (by simp [fullWalk])
    simp [hroot, hoffer, hrequest]
  | requestFound hclear =>
    have hroot := hpresent settings.locations.efiRoot (by simp [fullWalk, approach])
    have hoffer := hpresent settings.locations.offer (by simp [fullWalk])
    have hrequest := hpresent settings.locations.request (by simp [fullWalk])
    simp [hroot, hoffer, hrequest]

theorem Classified.statusOn {support : Support} (h : Classified settings support walk result)
    (told : ∀ path presence, .probe path presence ∈ walk → presence = view.presence path) :
    result = .ok (settings.statusOn view support) := by
  cases h with
  | unsupported hsupported => simp [Settings.statusOn, hsupported]
  | enabled hsupported hactive => simp [Settings.statusOn, hsupported, hactive]
  | walked hwalk => exact hwalk.statusOn told

/-- Where the firmware accepts a request, there is none. -/
theorem request_of_available {support : Support}
    (h : settings.statusOn view support = .interfaceAvailable) :
    view settings.locations.request = none := by
  unfold Settings.statusOn at h
  cases hrequest : view settings.locations.request with
  | none => rfl
  | some content =>
    simp only [hrequest, Option.isSome_some, if_true] at h
    repeat' split at h
    all_goals cases h

end Settings

/-! ## Operations -/

namespace Store.Honest

variable {settings : Settings} {machine : Machine κ σ} {lawful : σ → Prop} {view : σ → View}
  {state last : Machine.State κ σ} {trace : List Exchange} {support : Support}

/-- What only looks changes nothing, and every probe tells existence. -/
theorem looks {α : Type} (honest : machine.store.Honest settings lawful view)
    {program : Program α} {result : α} (asks : program.Asks settings.Allows)
    (yields : program.Yields trace result) (follows : machine.Follows state trace last)
    (looks : ∀ exchange ∈ calls trace, exchange.isLook = true) (law : lawful state.store) :
    lawful last.store ∧ view last.store = view state.store ∧
      ∀ path presence, .probe path presence ∈ calls trace →
        presence = (view state.store).presence path := by
  have hwithin : ∀ exchange ∈ calls trace, exchange.Within settings.Allows :=
    fun exchange member => yields.within asks exchange (List.mem_filter.1 member).1
  obtain ⟨hlaw, hview, hhonours⟩ := honest.follows (Machine.follows_calls.2 follows) hwithin
    (writeless_of_isLook looks) law
  exact ⟨hlaw, hview, fun path presence member => (hhonours _ member).probe_eq⟩

theorem examine (honest : machine.store.Honest settings lawful view)
    (finds : settings.Finds machine support) {found : Support}
    (yields : settings.examineProcessor.Yields trace found)
    (follows : machine.Follows state trace last) (law : lawful state.store) :
    found = support ∧ lawful last.store ∧ view last.store = view state.store := by
  obtain ⟨hlaw, hview, -⟩ := honest.looks Settings.asks_examineProcessor yields follows
    (Settings.yields_examineProcessor_looks yields) law
  exact ⟨finds _ _ _ _ yields follows, hlaw, hview⟩

theorem classify (honest : machine.store.Honest settings lawful view)
    (finds : settings.Finds machine support) {result : Except Failure Status}
    (yields : settings.classify.run.Yields trace result)
    (follows : machine.Follows state trace last) (law : lawful state.store) :
    result = .ok (settings.statusOn (view state.store) support) ∧ lawful last.store ∧
      view last.store = view state.store := by
  obtain ⟨hlaw, hview, hprobes⟩ := honest.looks Settings.asks_classify yields follows
    (Settings.yields_classify_looks yields) law
  obtain ⟨examination, walk, -, rfl, hclassified⟩ := finds.classified yields follows
  refine ⟨hclassified.statusOn fun path presence member => ?_, hlaw, hview⟩
  exact hprobes path presence (by simp [member])

/-- Taking up an offer delivers the front of it and records what it asks for. -/
theorem takeUp (honest : machine.store.Honest settings lawful view)
    (obliging : machine.store.Obliging settings lawful view) {taken : List Exchange}
    {result : Except Failure Unit} (taking : settings.TakingUp taken result)
    (follows : machine.Follows state taken last) (law : lawful state.store)
    (available : settings.statusOn (view state.store) support = .interfaceAvailable) :
    lawful last.store ∧ settings.EnablesOn (view state.store) support
      (result.map fun _ => .rebootRequired) (view last.store) := by
  cases taking with
  | @unread failure =>
    have htakes := Machine.follows_singleton.1 follows
    obtain ⟨hlaw, hhonours⟩ := honest.takes htakes ⟨rfl, rfl⟩ (fun hwrite => by cases hwrite) law
    obtain ⟨hnone, detail, rfl⟩ := hhonours.read_error
    have hsame : view last.store = view state.store := hhonours.quiet rfl
    rw [hsame]
    exact ⟨hlaw, .unread detail available hnone⟩
  | @short record failure hshort hfailed =>
    -- An honest read delivers whole records.
    have htakes := Machine.follows_singleton.1 follows
    obtain ⟨-, hhonours⟩ := honest.takes htakes ⟨rfl, rfl⟩ (fun hwrite => by cases hwrite) law
    obtain ⟨bytes, -, henough, rfl⟩ := View.file_of_front? hhonours.read_ok
    rw [List.length_take] at hshort
    omega
  | @written record _ henough =>
    obtain ⟨next, hread, hwrite⟩ := Machine.follows_cons.1 follows
    have hwritten := Machine.follows_singleton.1 hwrite
    obtain ⟨hlaw, hhonours⟩ := honest.takes hread ⟨rfl, rfl⟩ (fun hwrite => by cases hwrite) law
    have hsame : view next.store = view state.store := hhonours.quiet rfl
    have hfront := hhonours.read_ok
    obtain ⟨bytes, hfile, -⟩ := View.file_of_front? hfront
    have hready : (view next.store).Ready settings := by
      rw [hsame]
      refine ⟨⟨bytes, hfile⟩, ?_⟩
      rw [Settings.request_of_available available]
      simp
    obtain rfl : result = .ok () := hwritten.1.symm.trans (obliging _ hlaw hready)
    obtain ⟨hlast, hhonours⟩ := honest.takes hwritten rfl (fun _ => hready) hlaw
    rw [hhonours.write_ok, hsame]
    exact ⟨hlast, .recorded available hfront⟩

theorem enable (honest : machine.store.Honest settings lawful view)
    (obliging : machine.store.Obliging settings lawful view)
    (finds : settings.Finds machine support) {result : Except Failure Status}
    (yields : settings.enable.run.Yields trace result)
    (follows : machine.Follows state trace last) (law : lawful state.store) :
    lawful last.store ∧
      settings.EnablesOn (view state.store) support result (view last.store) := by
  obtain ⟨first, classified, rest, hfirst, rfl, henabling⟩ := Settings.yields_enable yields
  obtain ⟨middle, hclassifying, hfollowing⟩ := Machine.follows_append.1 follows
  obtain ⟨rfl, hlaw, hview⟩ := honest.classify finds hfirst hclassifying law
  rw [← Machine.follows_calls] at hfollowing
  generalize calls rest = taken at henabling hfollowing
  generalize hstatus : settings.statusOn (view state.store) support = status at henabling
  cases henabling with
  | settled hother =>
    cases Machine.follows_nil.1 hfollowing
    rw [hview]
    subst hstatus
    exact ⟨hlaw, .settled hother⟩
  | attempted htaking =>
    rw [← hview] at hstatus ⊢
    exact honest.takeUp obliging htaking hfollowing hlaw hstatus

theorem evaluate (honest : machine.store.Honest settings lawful view)
    (obliging : machine.store.Obliging settings lawful view)
    (finds : settings.Finds machine support) {statusOnly : Bool} {report : Report}
    (yields : (settings.evaluate statusOnly).Yields trace report)
    (follows : machine.Follows state trace last) (law : lawful state.store) :
    lawful last.store ∧ Operation.Behaves settings (view state.store) support
      (.evaluate statusOnly) (.report report) (view last.store) := by
  obtain ⟨found, conclusion⟩ := report
  obtain ⟨examination, first, classified, rest, hexamination, hfirst, rfl, hconcluded⟩ :=
    Settings.yields_evaluate yields
  obtain ⟨examined, hexamining, hfollowing⟩ := Machine.follows_append.1 follows
  obtain ⟨middle, hclassifying, hfollowing⟩ := Machine.follows_append.1 hfollowing
  obtain ⟨hsupport, hlaw, hview⟩ := honest.examine finds hexamination hexamining law
  obtain ⟨rfl, hlaw, hsame⟩ := honest.classify finds hfirst hclassifying hlaw
  replace hsame := hsame.trans hview
  rw [hview] at hconcluded
  subst hsupport
  change settings.Concluded statusOnly _ rest conclusion at hconcluded
  generalize hstatus : settings.statusOn (view state.store) found = status at hconcluded
  have hresult : ∀ result, statusOnly = false → settings.enable.run.Yields rest result →
      status = .interfaceAvailable → lawful last.store ∧
        Operation.Behaves settings (view state.store) found (.evaluate statusOnly)
          (.report ⟨found, Settings.concludedFrom result⟩) (view last.store) := by
    intro result hwanted henable havailable
    obtain ⟨hlast, henables⟩ := honest.enable obliging finds henable hfollowing hlaw
    rw [hsame] at henables
    subst hwanted
    exact ⟨hlast, .tried (hstatus.trans havailable) henables⟩
  cases hconcluded with
  | settled honly =>
    cases Machine.follows_nil.1 hfollowing
    subst hstatus
    rw [hsame]
    exact ⟨hlaw, .examined honly⟩
  | requested hwanted henable => exact hresult _ hwanted henable rfl
  | @overtaken _ other hwanted hother henable =>
    rw [← Settings.concludedFrom_of_ne hother]
    exact hresult _ hwanted henable rfl
  | refused hwanted henable => exact hresult _ hwanted henable rfl

theorem isCapable (honest : machine.store.Honest settings lawful view)
    (finds : settings.Finds machine support) {result : Except Failure Bool}
    (yields : settings.isCapable.run.Yields trace result)
    (follows : machine.Follows state trace last) (law : lawful state.store) :
    result = .ok (settings.capableOn (view state.store) support) ∧ lawful last.store ∧
      view last.store = view state.store := by
  obtain ⟨hlaw, hview, hprobes⟩ := honest.looks Settings.asks_isCapable yields follows
    (Settings.yields_isCapable_looks yields) law
  obtain ⟨examination, found, rest, hexamination, rfl, hcapability⟩ :=
    Settings.yields_isCapable yields
  obtain ⟨middle, hexamined, -⟩ := Machine.follows_append.1 follows
  cases finds _ _ _ _ hexamination hexamined
  refine ⟨?_, hlaw, hview⟩
  have hprobed : ∀ path presence, .probe path presence ∈ calls rest →
      presence = (view state.store).presence path :=
    fun path presence member => hprobes path presence (by simp [member])
  generalize calls rest = looked at hcapability hprobed
  cases hcapability with
  | unsupported hsupported => simp [Settings.capableOn, hsupported]
  | active hsupported hactive => simp [Settings.capableOn, hsupported, hactive]
  | looked presence =>
    rw [hprobed settings.locations.offer presence (by simp)]
    unfold View.presence Settings.capableOn
    cases (view state.store settings.locations.offer).isSome <;> rfl

/-- On an honest and obliging store, every operation behaves as the view has it. -/
theorem behaves (honest : machine.store.Honest settings lawful view)
    (obliging : machine.store.Obliging settings lawful view)
    (finds : settings.Finds machine support) {operation : Operation} {outcome : Outcome}
    (yields : (operation.program settings).Yields trace outcome)
    (follows : machine.Follows state trace last) (law : lawful state.store) :
    lawful last.store ∧
      operation.Behaves settings (view state.store) support outcome (view last.store) := by
  cases operation with
  | classify =>
    obtain ⟨result, hclassify, rfl⟩ := yields.of_map
    obtain ⟨rfl, hlaw, hview⟩ := honest.classify finds hclassify follows law
    rw [hview]
    exact ⟨hlaw, .classify⟩
  | enable =>
    obtain ⟨result, henable, rfl⟩ := yields.of_map
    obtain ⟨hlaw, henables⟩ := honest.enable obliging finds henable follows law
    exact ⟨hlaw, .enable henables⟩
  | isCapable =>
    obtain ⟨result, hcapable, rfl⟩ := yields.of_map
    obtain ⟨rfl, hlaw, hview⟩ := honest.isCapable finds hcapable follows law
    rw [hview]
    exact ⟨hlaw, .isCapable⟩
  | examineProcessor =>
    obtain ⟨found, hexamine, rfl⟩ := yields.of_map
    obtain ⟨rfl, hlaw, hview⟩ := honest.examine finds hexamine follows law
    rw [hview]
    exact ⟨hlaw, .examineProcessor⟩
  | evaluate statusOnly =>
    obtain ⟨report, hevaluate, rfl⟩ := yields.of_map
    exact honest.evaluate obliging finds hevaluate follows law

end Store.Honest

/-! ## Alike -/

/-- Outcomes are alike if they are equal but for the wording of an unexpected failure and
for a message that quotes it. -/
inductive Outcome.Alike : Outcome → Outcome → Prop
  | same (outcome) : Alike outcome outcome
  | status (detail detail') :
      Alike (.status (.error ⟨.unexpected, detail⟩)) (.status (.error ⟨.unexpected, detail'⟩))
  | report (support detail detail') :
      Alike
        (.report ⟨support,
          Settings.concludeFailure Failure.enableExplanation ⟨.unexpected, detail⟩⟩)
        (.report ⟨support,
          Settings.concludeFailure Failure.enableExplanation ⟨.unexpected, detail'⟩⟩)

theorem Settings.EnablesOn.alike {settings : Settings} {view after after' : View}
    {support : Support} {result result' : Except Failure Status}
    (h : settings.EnablesOn view support result after)
    (h' : settings.EnablesOn view support result' after') :
    after = after' ∧ (result = result' ∨ ∃ detail detail',
      result = .error ⟨.unexpected, detail⟩ ∧ result' = .error ⟨.unexpected, detail'⟩) := by
  cases h with
  | settled hother =>
    cases h' with
    | settled => exact ⟨rfl, .inl rfl⟩
    | unread _ havailable | recorded havailable => exact absurd havailable hother
  | unread detail havailable hnone =>
    cases h' with
    | settled hother => exact absurd havailable hother
    | unread detail' => exact ⟨rfl, .inr ⟨detail, detail', rfl, rfl⟩⟩
    | recorded _ hfront => cases hnone.symm.trans hfront
  | recorded havailable hfront =>
    cases h' with
    | settled hother => exact absurd havailable hother
    | unread _ _ hnone => cases hnone.symm.trans hfront
    | recorded _ hfront' =>
      cases Option.some.inj (hfront.symm.trans hfront')
      exact ⟨rfl, .inl rfl⟩

/-- On one view, an operation comes to outcomes that are alike, and to one view. -/
theorem Operation.Behaves.alike {settings : Settings} {view after after' : View}
    {support : Support} {operation : Operation} {outcome outcome' : Outcome}
    (h : operation.Behaves settings view support outcome after)
    (h' : operation.Behaves settings view support outcome' after') :
    outcome.Alike outcome' ∧ after = after' := by
  cases h with
  | classify | isCapable | examineProcessor =>
    cases h'
    exact ⟨.same _, rfl⟩
  | enable henables =>
    cases h' with
    | enable henables' =>
      obtain ⟨rfl, rfl | ⟨detail, detail', rfl, rfl⟩⟩ := henables.alike henables'
      · exact ⟨.same _, rfl⟩
      · exact ⟨.status detail detail', rfl⟩
  | examined honly =>
    cases h' with
    | examined => exact ⟨.same _, rfl⟩
    | tried havailable => cases honly havailable
  | tried havailable henables =>
    cases h' with
    | examined honly => cases honly havailable
    | tried _ henables' =>
      obtain ⟨rfl, rfl | ⟨detail, detail', rfl, rfl⟩⟩ := henables.alike henables'
      · exact ⟨.same _, rfl⟩
      · exact ⟨.report support detail detail', rfl⟩

/-- A store that is honest and obliging, beside a processor that every examination finds
alike. -/
structure Machine.Plays (machine : Machine κ σ) (settings : Settings) (support : Support)
    (lawful : σ → Prop) (view : σ → View) : Prop where
  honest : machine.store.Honest settings lawful view
  obliging : machine.store.Obliging settings lawful view
  finds : settings.Finds machine support

/-- Sessions on two stores with one view are alike, step by step, and end with one view. -/
theorem Session.alike {settings : Settings} {support : Support} {machine : Machine κ σ}
    {other : Machine κ τ} {lawful : σ → Prop} {lawful' : τ → Prop} {view : σ → View}
    {view' : τ → View} (plays : machine.Plays settings support lawful view)
    (plays' : other.Plays settings support lawful' view') (operations : List Operation)
    {state : Machine.State κ σ} {state' : Machine.State κ τ} (law : lawful state.store)
    (law' : lawful' state'.store) (same : view state.store = view' state'.store) :
    let session := Session.run settings machine (Session.undisturbed σ operations) state
    let session' := Session.run settings other (Session.undisturbed τ operations) state'
    List.Forall₂ (Option.Rel fun one another => one.outcome.Alike another.outcome)
        session.1 session'.1 ∧
      lawful session.2.store ∧ lawful' session'.2.store ∧
      view session.2.store = view' session'.2.store := by
  induction operations generalizing state state' with
  | nil => exact ⟨.nil, law, law', same⟩
  | cons operation rest ih =>
    obtain ⟨trace, hyields, hfollows, -⟩ :=
      exists_yields_perform settings machine operation state
    obtain ⟨trace', hyields', hfollows', -⟩ :=
      exists_yields_perform settings other operation state'
    obtain ⟨hlaw, hbehaves⟩ :=
      plays.honest.behaves plays.obliging plays.finds hyields hfollows law
    obtain ⟨hlaw', hbehaves'⟩ :=
      plays'.honest.behaves plays'.obliging plays'.finds hyields' hfollows' law'
    rw [← same] at hbehaves'
    obtain ⟨halike, hsame⟩ := hbehaves.alike hbehaves'
    obtain ⟨hall, hlast⟩ := ih hlaw hlaw' hsame
    exact ⟨.cons (.some halike) hall, hlast⟩

end SgxActivation
