import SgxActivation.Proofs.RecordedOnce
import SgxActivation.Proofs.StoreCalls

/-!
# The first failure ends an operation

A call to the store can go wrong in a few ways, each of which is a **fault**. A fault ends the
operation, and its failure is what the operation comes to; only a look at the system partition
may go wrong and merely cost detail.

* `Exchange.isFault`, **`Exchange.Fails`** — which calls are faults, and the failure of each;
* **`Settings.Course`** — how the calls of an operation to the store end: with none at fault,
  with a look at the system partition, or at the first fault;
* `Operation.course` — every operation takes such a course, and passes its failure on;
* `Operation.first_failure` — so an operation errs exactly if its last call is a fault, and
  what exists in a scripted store is then as it was.
-/

namespace SgxActivation

variable {α β κ σ : Type}

open Exchange Record

/-! ## Faults -/

namespace Exchange

/-- Whether a call to the store went wrong: a probe was refused or failed, a read failed or
delivered less than an offer, or a write failed. -/
def isFault : Exchange → Bool
  | .probe _ .denied | .probe _ (.failed _) | .read _ _ (.error _) | .write _ _ (.error _) => true
  | .read _ _ (.ok record) => record.length < Offer.size
  | _ => false

/-- The failure that a fault ends an operation with. Reads and writes fail with the store's
own. -/
inductive Fails : Exchange → Failure → Prop
  | denied {path refusal} :
      refusal = Settings.bootRefusal path ∨ refusal = Settings.variableRefusal path →
      Fails (.probe path .denied) ⟨.noPrivilege, refusal⟩
  | failed (path reason) :
      Fails (.probe path (.failed reason)) ⟨.unexpected, s!"{path.text}: {reason}"⟩
  | unread (path length failure) : Fails (.read path length (.error failure)) failure
  | short {path length record} : record.length < Offer.size →
      Fails (.read path length (.ok record))
        ⟨.unexpected, s!"EPCBIOS record is {record.length} bytes, expected {Offer.size}"⟩
  | unwritten (path bytes failure) : Fails (.write path bytes (.error failure)) failure

theorem Fails.isFault {exchange : Exchange} {failure : Failure} (h : exchange.Fails failure) :
    exchange.isFault = true := by
  cases h with
  | short hshort => exact decide_eq_true hshort
  | _ => rfl

/-- Exchanges of which none is a fault. -/
def Faultless (exchanges : List Exchange) : Prop :=
  ∀ exchange ∈ exchanges, exchange.isFault = false

theorem faultless_nil : Faultless [] := by simp [Faultless]

theorem Faultless.append {first second : List Exchange} (hfirst : Faultless first)
    (hsecond : Faultless second) : Faultless (first ++ second) :=
  List.forall_mem_append.2 ⟨hfirst, hsecond⟩

/-- One more call that does not go wrong. -/
theorem Faultless.snoc {exchanges : List Exchange} {last : Exchange} (h : Faultless exchanges)
    (right : last.isFault = false) : Faultless (exchanges ++ [last]) := by
  refine h.append fun exchange member => ?_
  cases List.mem_singleton.1 member
  exact right

/-- Where only the last of some exchanges can be a fault, none comes after a fault. -/
theorem Faultless.eq_nil {exchanges earlier later : List Exchange} {last fault : Exchange}
    (h : Faultless exchanges) (split : exchanges ++ [last] = earlier ++ fault :: later)
    (wrong : fault.isFault = true) : later = [] := by
  rcases List.eq_nil_or_concat later with rfl | ⟨between, end', rfl⟩
  · rfl
  · -- Something after the fault would be the last, and the fault among those before it.
    rw [List.concat_eq_append, ← List.cons_append, ← List.append_assoc] at split
    obtain ⟨rfl, -⟩ := List.append_inj' split rfl
    exact absurd wrong (by simp [h fault (by simp)])

end Exchange

theorem Presence.IsClear.isFault {presence : Presence} (clear : presence.IsClear) (path : Path) :
    (Exchange.probe path presence).isFault = false := by
  rcases clear with rfl | rfl <;> rfl

/-- The failure of an attempt, if it failed. -/
def Failure.of? : Except Failure α → Option Failure
  | .ok _ => none
  | .error failure => some failure

@[simp]
theorem Failure.of?_map (f : α → β) (result : Except Failure α) :
    Failure.of? (result.map f) = Failure.of? result := by
  cases result <;> rfl

namespace Settings

variable {settings : Settings} {asked earlier walk taken trace : List Exchange}

/-- A probe that blocks the way is a fault, with the failure that it is judged as. -/
theorem fails_of_judge {path : Path} {refusal : String} {presence : Presence} {failure : Failure}
    (blocked : judge path refusal presence = .error failure)
    (known : refusal = bootRefusal path ∨ refusal = variableRefusal path) :
    (Exchange.probe path presence).Fails failure := by
  cases presence with
  | present | absent => cases blocked
  | denied =>
    cases blocked
    exact .denied known
  | failed reason =>
    cases blocked
    exact .failed path reason

/-! ## Courses -/

/-- The calls end with the look at the system partition, after a walk that missed the firmware
directory. It is told by its place, since configured paths may be the same. -/
def AsksPartition (settings : Settings) (asked : List Exchange) : Prop :=
  ∃ earlier presence, (earlier = [] ∨ ∃ seen, earlier = settings.fullWalk seen .absent) ∧
    asked = earlier ++ [.probe settings.locations.efiRoot .absent,
      .probe settings.locations.bootEfi presence]

theorem AsksPartition.length (h : settings.AsksPartition asked) :
    asked.length = 2 ∨ asked.length = 6 := by
  obtain ⟨earlier, presence, rfl | ⟨seen, rfl⟩, rfl⟩ := h
  · exact .inl rfl
  · exact .inr rfl

theorem AsksPartition.last_two {first second : Exchange}
    (h : settings.AsksPartition (earlier ++ [first, second])) :
    first = .probe settings.locations.efiRoot .absent ∧
      ∃ presence, second = .probe settings.locations.bootEfi presence := by
  obtain ⟨before, presence, -, heq⟩ := h
  obtain ⟨-, htail⟩ := List.append_inj' heq rfl
  obtain ⟨hfirst, htail⟩ := List.cons.inj htail
  exact ⟨hfirst, presence, (List.cons.inj htail).1⟩

/-- How the calls of an operation to the store end, and with what failure. -/
inductive Course (settings : Settings) (asked : List Exchange) : Option Failure → Prop
  | sound : Faultless asked → Course settings asked none
  | partition {earlier last} : Faultless earlier → asked = earlier ++ [last] →
      settings.AsksPartition asked → Course settings asked none
  | failed {earlier last failure} : Faultless earlier → asked = earlier ++ [last] →
      last.Fails failure → ¬ settings.AsksPartition asked → Course settings asked (some failure)

theorem Course.isSome_iff {failure? : Option Failure} (h : settings.Course asked failure?) :
    failure?.isSome = true ↔ ∃ earlier last, asked = earlier ++ [last] ∧ last.isFault = true ∧
      ¬ settings.AsksPartition asked := by
  cases h with
  | sound hsound =>
    refine iff_of_false (by simp) ?_
    rintro ⟨earlier, last, rfl, hfault, -⟩
    simp [hsound last (by simp)] at hfault
  | partition hsound heq hasks =>
    refine iff_of_false (by simp) ?_
    rintro ⟨earlier, last, -, -, hother⟩
    exact hother hasks
  | @failed earlier last _ hsound heq hfails hother =>
    exact iff_of_true rfl ⟨earlier, last, heq, hfails.isFault, hother⟩

theorem Course.eq_nil {failure? : Option Failure} (h : settings.Course asked failure?)
    {fault : Exchange} {later : List Exchange} (split : asked = earlier ++ fault :: later)
    (wrong : fault.isFault = true) : later = [] := by
  cases h with
  | sound hsound => simp [hsound fault (by simp [split])] at wrong
  | partition hsound heq | failed hsound heq => exact hsound.eq_nil (heq.symm.trans split) wrong

/-- What was asked of the store before a classification: nothing, or, before the one of an
enable that a report goes on to, a first walk that found an offer and missed the request. -/
inductive Lead (settings : Settings) : List Exchange → Prop
  | first : Lead settings []
  | again {seen} : seen.IsClear → Lead settings (settings.fullWalk seen .absent)

theorem faultless_approach {seen : Presence} (clear : seen.IsClear) :
    Faultless (settings.approach seen) := by
  intro exchange member
  simp only [approach, List.mem_cons, List.not_mem_nil, or_false] at member
  rcases member with rfl | rfl
  · rfl
  · exact clear.isFault _

theorem faultless_fullWalk {seen presence : Presence} (clear : seen.IsClear)
    (clear' : presence.IsClear) : Faultless (settings.fullWalk seen presence) := by
  refine (faultless_approach clear).append ?_
  intro exchange member
  simp only [List.mem_cons, List.not_mem_nil, or_false] at member
  rcases member with rfl | rfl
  · rfl
  · exact clear'.isFault _

theorem Lead.faultless (h : settings.Lead earlier) : Faultless earlier := by
  cases h with
  | first => exact faultless_nil
  | again clear => exact faultless_fullWalk clear (.inr rfl)

theorem Lead.length (h : settings.Lead earlier) : earlier.length = 0 ∨ earlier.length = 4 := by
  cases h with
  | first => exact .inl rfl
  | again clear => exact .inr rfl

/-- After a lead, the look at the system partition comes second, or sixth in all. -/
theorem Lead.not_asksPartition (lead : settings.Lead earlier) (h : walk.length ≠ 2)
    (h' : walk.length ≠ 6) : ¬ settings.AsksPartition (earlier ++ walk) := by
  intro hasks
  have hlength := hasks.length
  rw [List.length_append] at hlength
  rcases lead.length with hlead | hlead <;> omega

/-- A call that goes wrong after a lead and others that did not ends the course. -/
theorem Lead.failed {sound : List Exchange} {last : Exchange} {failure : Failure}
    (lead : settings.Lead earlier) (faultless : Faultless sound) (fails : last.Fails failure)
    (other : ¬ settings.AsksPartition (earlier ++ (sound ++ [last]))) :
    settings.Course (earlier ++ (sound ++ [last])) (some failure) :=
  .failed (lead.faultless.append faultless) (List.append_assoc ..).symm fails other

theorem Walk.course {result : Except Failure Status} (h : Walk settings walk result)
    (lead : settings.Lead earlier) :
    settings.Course (earlier ++ walk) (Failure.of? result) := by
  have hsound := lead.faultless
  cases h with
  | rootBlocked hblocked =>
    exact lead.failed faultless_nil (fails_of_judge hblocked (.inl rfl))
      (lead.not_asksPartition (by simp) (by simp))
  | legacy presence =>
    have hasks : settings.AsksPartition (earlier ++ [.probe settings.locations.efiRoot .absent,
        .probe settings.locations.bootEfi presence]) := by
      cases lead with
      | first => exact ⟨[], presence, .inl rfl, rfl⟩
      | again => exact ⟨_, presence, .inr ⟨_, rfl⟩, rfl⟩
    exact .partition (hsound.snoc rfl) (List.append_assoc earlier [_] [_]).symm hasks
  | @directoryBlocked presence failure hblocked =>
    -- The firmware directory was found, so what blocks the way is no system partition.
    refine lead.failed (faultless_nil.snoc rfl) (fails_of_judge hblocked (.inr rfl)) ?_
    intro hasks
    cases (AsksPartition.last_two hasks).1
  | offerBlocked hclear hblocked =>
    exact lead.failed (faultless_approach hclear) (fails_of_judge hblocked (.inr rfl))
      (lead.not_asksPartition (by simp [approach]) (by simp [approach]))
  | offerMissing hclear =>
    exact .sound (hsound.append ((faultless_approach hclear).snoc rfl))
  | @requestBlocked seen presence failure hclear hblocked =>
    have hwalk : settings.fullWalk seen presence =
        (settings.approach seen ++ [.probe settings.locations.offer .present]) ++
          [.probe settings.locations.request presence] := rfl
    rw [hwalk]
    exact lead.failed ((faultless_approach hclear).snoc rfl)
      (fails_of_judge hblocked (.inr rfl))
      (lead.not_asksPartition (by simp [approach]) (by simp [approach]))
  | requestMissing hclear => exact .sound (hsound.append (faultless_fullWalk hclear (.inr rfl)))
  | requestFound hclear => exact .sound (hsound.append (faultless_fullWalk hclear (.inl rfl)))

theorem course_classify (lead : settings.Lead earlier) {result : Except Failure Status}
    (h : settings.classify.run.Yields trace result) :
    settings.Course (earlier ++ storeCalls trace) (Failure.of? result) := by
  obtain ⟨examination, support, walk, hexamination, rfl, hclassified⟩ := yields_classify h
  rw [storeCalls_append, storeCalls_examineProcessor hexamination, List.nil_append]
  unfold storeCalls
  generalize calls walk = walked at hclassified
  cases hclassified with
  | unsupported | enabled => exact .sound (lead.faultless.append faultless_nil)
  | walked hwalk =>
    rw [hwalk.storeCalls]
    exact hwalk.course lead

/-- Taking up an offer after a full walk that found it. -/
theorem TakingUp.course {result : Except Failure Unit} (h : TakingUp settings taken result)
    {seen : Presence} (clear : seen.IsClear) (lead : settings.Lead earlier) :
    settings.Course (earlier ++ (settings.fullWalk seen .absent ++ taken))
      (Failure.of? result) := by
  have hwalk : Faultless (settings.fullWalk seen .absent) := faultless_fullWalk clear (.inr rfl)
  cases h with
  | unread =>
    exact lead.failed hwalk (.unread _ _ _)
      (lead.not_asksPartition (by simp [length_fullWalk]) (by simp [length_fullWalk]))
  | short hshort hfailed =>
    cases (Offer.ofBytes_of_lt hshort).symm.trans hfailed
    exact lead.failed hwalk (.short hshort)
      (lead.not_asksPartition (by simp [length_fullWalk]) (by simp [length_fullWalk]))
  | @written record _ henough =>
    let read : Exchange := .read settings.locations.offer Offer.size (.ok record)
    let write : Exchange := .write settings.locations.request (requestBytes record) result
    have hread : read.isFault = false := decide_eq_false (by omega)
    have hsound := lead.faultless.append (hwalk.snoc hread)
    have hsplit : earlier ++ (settings.fullWalk seen .absent ++ [read, write]) =
        (earlier ++ (settings.fullWalk seen .absent ++ [read])) ++ [write] := by simp
    -- What stands before the write is a read and no probe.
    have hother : ¬ settings.AsksPartition
        (earlier ++ (settings.fullWalk seen .absent ++ [read, write])) := by
      rw [← List.append_assoc]
      intro hasks
      have hfirst : read = .probe settings.locations.efiRoot .absent := hasks.last_two.1
      simp [read] at hfirst
    cases result with
    | ok done =>
      show settings.Course (earlier ++ (settings.fullWalk seen .absent ++ [read, write])) none
      rw [hsplit]
      exact .sound (hsound.snoc rfl)
    | error failure => exact .failed hsound hsplit (.unwritten _ _ _) hother

theorem TakingUp.storeCalls {result : Except Failure Unit} (h : TakingUp settings taken result) :
    taken.filter (fun exchange => !exchange.isQuery) = taken := by
  cases h <;> rfl

theorem course_enable (lead : settings.Lead earlier) {result : Except Failure Status}
    (h : settings.enable.run.Yields trace result) :
    settings.Course (earlier ++ storeCalls trace) (Failure.of? result) := by
  obtain ⟨first, classified, rest, hfirst, rfl, henabling⟩ := yields_enable h
  have hcourse := course_classify lead hfirst
  rw [storeCalls_append]
  generalize htaken : calls rest = taken at henabling
  cases henabling with
  | failed | settled =>
    rw [storeCalls_of_calls htaken, List.append_nil]
    exact hcourse
  | attempted htaking =>
    obtain ⟨seen, hclear, hwalk⟩ := storeCalls_classify_full false hfirst
    have hrest : storeCalls rest = taken := by
      unfold storeCalls
      rw [htaken, htaking.storeCalls]
    rw [hwalk, hrest, Failure.of?_map]
    exact htaking.course hclear lead

theorem course_isCapable {result : Except Failure Bool}
    (h : settings.isCapable.run.Yields trace result) :
    settings.Course (storeCalls trace) (Failure.of? result) := by
  obtain ⟨examination, support, rest, hexamination, rfl, hcapability⟩ := yields_isCapable h
  rw [storeCalls_append, storeCalls_examineProcessor hexamination, List.nil_append]
  unfold storeCalls
  generalize calls rest = asked at hcapability
  cases hcapability with
  | unsupported | active => exact .sound faultless_nil
  | looked presence =>
    generalize hjudged : judge settings.locations.offer _ presence = result
    cases result with
    | ok found =>
      have hclear : presence.IsClear := judge_ok hjudged ▸ isClear_ite found
      exact .sound (faultless_nil.snoc (hclear.isFault _))
    | error failure =>
      exact Lead.first.failed faultless_nil (fails_of_judge hjudged (.inr rfl))
        (Lead.first.not_asksPartition (by simp) (by simp))

end Settings

/-! ## Operations -/

/-- Whether an outcome is an error, or a report of one. -/
def Outcome.isError : Outcome → Bool
  | .status result => !result.isOk
  | .capable result => !result.isOk
  | .support _ => false
  | .report made => made.errorCode?.isSome

/-- A failure is passed on as it is, or is told by a report that has no status. -/
inductive Outcome.Reports : Outcome → Failure → Prop
  | status (failure) : Reports (.status (.error failure)) failure
  | capable (failure) : Reports (.capable (.error failure)) failure
  | report {report failure} : report.status? = none → report.errorCode? = some failure.code →
      report.exitCode = 1 →
      report.message = failure.statusExplanation ∨ report.message = failure.enableExplanation →
      Reports (.report report) failure

/-- An outcome goes with the end of a course. -/
def Outcome.Matches (outcome : Outcome) : Option Failure → Prop
  | none => outcome.isError = false
  | some failure => outcome.isError = true ∧ outcome.Reports failure

theorem Outcome.isError_iff {outcome : Outcome} {failure? : Option Failure}
    (h : outcome.Matches failure?) : outcome.isError = true ↔ failure?.isSome = true := by
  cases failure? with
  | none => exact iff_of_false (by simp [show outcome.isError = false from h]) (by simp)
  | some failure => exact iff_of_true h.1 rfl

theorem Outcome.matches_status (result : Except Failure Status) :
    (Outcome.status result).Matches (Failure.of? result) := by
  cases result with
  | ok status => rfl
  | error failure => exact ⟨rfl, .status failure⟩

theorem Outcome.matches_capable (result : Except Failure Bool) :
    (Outcome.capable result).Matches (Failure.of? result) := by
  cases result with
  | ok capable => rfl
  | error failure => exact ⟨rfl, .capable failure⟩

namespace Settings

variable {settings : Settings} {trace : List Exchange}

/-- A report has the course of its classification, or of the enable that comes after it. -/
theorem course_evaluate {statusOnly : Bool} {report : Report}
    (h : (settings.evaluate statusOnly).Yields trace report) :
    ∃ failure?, settings.Course (storeCalls trace) failure? ∧
      (Outcome.report report).Matches failure? := by
  obtain ⟨support, conclusion⟩ := report
  obtain ⟨examination, first, classified, rest, hexamination, hfirst, rfl, hconcluded⟩ :=
    yields_evaluate h
  rw [storeCalls_append, storeCalls_examineProcessor hexamination, List.nil_append,
    storeCalls_append]
  -- An enable comes after a walk that found an offer, so its own walk is the second.
  have enabling {result : Except Failure Status}
      (hfound : classified = .ok .interfaceAvailable)
      (henable : settings.enable.run.Yields rest result) :
      settings.Course (storeCalls first ++ storeCalls rest) (Failure.of? result) := by
    subst hfound
    obtain ⟨seen, hclear, hwalk⟩ := storeCalls_classify_full false hfirst
    rw [hwalk]
    exact course_enable (.again hclear) henable
  cases hconcluded with
  | failed failure =>
    refine ⟨some failure, ?_, rfl, .report rfl rfl rfl (.inl rfl)⟩
    exact List.append_nil _ ▸ course_classify .first hfirst
  | settled =>
    exact ⟨none, List.append_nil _ ▸ course_classify .first hfirst, rfl⟩
  | requested _ henable | overtaken _ _ henable => exact ⟨none, enabling rfl henable, rfl⟩
  | @refused _ failure _ henable =>
    exact ⟨some failure, enabling rfl henable, rfl, .report rfl rfl rfl (.inr rfl)⟩

end Settings

namespace Operation

variable {settings : Settings} {operation : Operation} {trace : List Exchange} {outcome : Outcome}
  {processor : Processor κ} {state last : Machine.State κ Scripted.Entries}

/-- Whatever is answered, an operation takes a course, and its outcome goes with the end. -/
theorem course (h : (operation.program settings).Yields trace outcome) :
    ∃ failure?, settings.Course (storeCalls trace) failure? ∧ outcome.Matches failure? := by
  cases operation with
  | classify =>
    obtain ⟨result, hclassify, rfl⟩ := h.of_map
    exact ⟨_, Settings.course_classify .first hclassify, Outcome.matches_status result⟩
  | enable =>
    obtain ⟨result, henable, rfl⟩ := h.of_map
    exact ⟨_, Settings.course_enable .first henable, Outcome.matches_status result⟩
  | isCapable =>
    obtain ⟨result, hcapable, rfl⟩ := h.of_map
    exact ⟨_, Settings.course_isCapable hcapable, Outcome.matches_capable result⟩
  | examineProcessor =>
    obtain ⟨support, hexamine, rfl⟩ := h.of_map
    refine ⟨none, .sound ?_, rfl⟩
    rw [Settings.storeCalls_examineProcessor hexamine]
    exact faultless_nil
  | evaluate statusOnly =>
    obtain ⟨report, hevaluate, rfl⟩ := h.of_map
    exact Settings.course_evaluate hevaluate

/-- An operation that errs has recorded nothing, since a recording ends an operation too. -/
theorem recordless_of_isError (h : (operation.program settings).Yields trace outcome)
    (follows : Machine.Follows ⟨processor, Scripted.store⟩ state trace last)
    (errs : outcome.isError = true) : ∀ exchange ∈ calls trace, exchange.isRecording = false := by
  rcases recorded_or h follows with ⟨hrecordless, -⟩ | ⟨earlier, bytes, hcalls, -, -⟩
  · exact hrecordless
  obtain ⟨failure?, hcourse, hmatches⟩ := course h
  obtain ⟨before, last, heq, hfault, -⟩ :=
    hcourse.isSome_iff.1 ((Outcome.isError_iff hmatches).1 errs)
  have hasked : storeCalls trace = earlier.filter (fun exchange => !exchange.isQuery) ++
      [.write settings.locations.request bytes (.ok ())] := by
    unfold storeCalls
    rw [hcalls, List.filter_append]
    rfl
  obtain ⟨-, hlast⟩ := List.append_inj' (heq.symm.trans hasked) rfl
  cases hlast
  cases hfault

/-- An operation errs exactly if the last that it asks of the store is a fault, other than in
the look at the system partition. Nothing is asked after a fault. The error is the failure of
that call, passed on as it is or told by a report without a status, and everything that exists
in the store is then as it was before. -/
theorem first_failure (settings : Settings) (processor : Processor κ) (operation : Operation)
    (state : Machine.State κ Scripted.Entries) :
    let performed := Session.perform settings ⟨processor, Scripted.store⟩ operation state
    let outcome := performed.1.outcome
    let asked := storeCalls performed.1.trace
    (outcome.isError = true ↔
      ∃ earlier last, asked = earlier ++ [last] ∧ last.isFault = true ∧
        ¬ settings.AsksPartition asked) ∧
    (∀ earlier fault later, asked = earlier ++ fault :: later → fault.isFault = true →
      later = []) ∧
    (outcome.isError = true →
      (∃ earlier last failure, asked = earlier ++ [last] ∧ last.Fails failure ∧
        outcome.Reports failure) ∧
      ∀ path, performed.2.store.content? path = state.store.content? path) := by
  intro performed outcome asked
  obtain ⟨trace, hyields, hfollows, hcalls⟩ :=
    Session.exists_yields_perform settings ⟨processor, Scripted.store⟩ operation state
  obtain ⟨failure?, hcourse, hmatches⟩ := course hyields
  rw [storeCalls_congr hcalls] at hcourse
  have hiff := Outcome.isError_iff hmatches
  refine ⟨hiff.trans hcourse.isSome_iff, fun _ _ _ => hcourse.eq_nil, fun herrs => ⟨?_, ?_⟩⟩
  · cases hcourse with
    | sound | partition => cases hiff.1 herrs
    | failed _ heq hfails => exact ⟨_, _, _, heq, hfails, hmatches.2⟩
  · exact Scripted.content?_of_recordless hfollows (recordless_of_isError hyields hfollows herrs)

/-- Without a firmware directory, a refused look at the system partition is a fault, and yet
there is a status. -/
example :
    let performed := Session.perform Settings.stock Scripted.stockMachine .classify
      ⟨0, Table.ofList [(Locations.bootEfi {}, { probes := [.denied] })]⟩
    (storeCalls performed.1.trace).any isFault = true ∧ performed.1.outcome.isError = false := by
  decide +kernel

end Operation

end SgxActivation
