import SgxActivation.Proofs.WriteProtocol

/-!
# The request is recorded once

On a scripted store whose rules leave the probes of the request alone, and where
the world outside leaves it alone as well:

* `Operation.recorded_or` — an operation records the request, which is then the
  last thing it does, or leaves what is there as it is;
* `Operation.quiet_of_exists` — it writes nothing where a request exists, since
  the probe right before a write would have found it;
* `Session.recorded_once` — so a session records the request at most once and
  nothing changes it ever after; what the platform then says of itself is told
  by `Operation.Pending`.
-/

namespace SgxActivation

variable {κ : Type}

open Exchange Scripted

/-- Whether an exchange is a write that succeeded. -/
def Exchange.isRecording : Exchange → Bool
  | .write _ _ (.ok _) => true
  | _ => false

theorem Exchange.isWrite_of_isRecording {exchange : Exchange} (h : exchange.isRecording = true) :
    exchange.isWrite = true := by
  cases exchange with
  | write path bytes written => rfl
  | _ => cases h

theorem Exchange.Writeless.recordless {exchanges : List Exchange} (h : Writeless exchanges) :
    ∀ exchange ∈ exchanges, exchange.isRecording = false := by
  intro exchange member
  cases hrecording : exchange.isRecording with
  | false => rfl
  | true => exact absurd (isWrite_of_isRecording hrecording) (by simp [h exchange member])

/-- Where nothing is recorded, everything that exists stays as it is. -/
theorem Scripted.content?_of_recordless {processor : Processor κ} {trace : List Exchange}
    {state last : Machine.State κ Entries}
    (follows : Machine.Follows ⟨processor, store⟩ state trace last)
    (recordless : ∀ exchange ∈ calls trace, exchange.isRecording = false) (path : Path) :
    last.store.content? path = state.store.content? path := by
  rw [← Machine.follows_calls] at follows
  refine follows.preserves (fun middle => middle.store.content? path = state.store.content? path)
    (fun exchange member before after htakes hbefore => ?_) rfl
  rw [takes_content? htakes, hbefore]
  rintro bytes rfl
  cases recordless _ member

namespace Operation

variable {settings : Settings} {processor : Processor κ} {operation : Operation}
  {trace : List Exchange} {outcome : Outcome} {state last : Machine.State κ Entries}

/-- An operation leaves what exists at the request's path as it is, or its last call
records a request. -/
theorem recorded_or (yields : (operation.program settings).Yields trace outcome)
    (follows : Machine.Follows ⟨processor, store⟩ state trace last) :
    ((∀ exchange ∈ calls trace, exchange.isRecording = false) ∧
        last.store.content? settings.locations.request =
          state.store.content? settings.locations.request) ∨
      ∃ earlier bytes, calls trace =
          earlier ++ [.write settings.locations.request bytes (.ok ())] ∧ Writeless earlier ∧
        last.store.content? settings.locations.request = some (.file bytes) := by
  have kept := content?_of_recordless follows
  rcases (writes_guarded yields).1 with
    hnone | ⟨earlier, examination, seen, record, written, hearlier, hexamination, -, -, hcalls⟩
  · exact .inl ⟨hnone.recordless, kept hnone.recordless _⟩
  have hfirst := hearlier.append (Settings.writeless_leadUp seen record hexamination)
  cases written with
  | error failure =>
    have hrecordless : ∀ exchange ∈ calls trace, exchange.isRecording = false := by
      rw [hcalls]
      refine List.forall_mem_append.2 ⟨hfirst.recordless, fun exchange member => ?_⟩
      cases List.mem_singleton.1 member
      rfl
    exact .inl ⟨hrecordless, kept hrecordless _⟩
  | ok done =>
    refine .inr ⟨_, _, hcalls, hfirst, ?_⟩
    rw [← Machine.follows_calls, hcalls, Machine.follows_append] at follows
    obtain ⟨middle, -, hwrite⟩ := follows
    exact takes_write (Machine.follows_singleton.1 hwrite)

/-- Where a request exists and its probes are candid, an operation writes nothing. -/
theorem quiet_of_exists (yields : (operation.program settings).Yields trace outcome)
    (follows : Machine.Follows ⟨processor, store⟩ state trace last)
    (candid : state.store.Candid settings.locations.request)
    (found : state.store.Exists settings.locations.request) : Writeless (calls trace) := by
  rcases (writes_guarded yields).1 with
    hnone | ⟨earlier, examination, seen, record, written, -, -, -, -, hcalls⟩
  · exact hnone
  -- The lead-up holds a probe that missed the request.
  have hmissed : .probe settings.locations.request .absent ∈ calls trace := by
    rw [hcalls]
    simp [Settings.leadUp, Settings.fullWalk]
  rw [← Machine.follows_calls] at follows
  obtain ⟨before, after, ⟨hcandid, hfound⟩, htakes⟩ := follows.exists_takes
    (fun middle => middle.store.Candid _ ∧ middle.store.Exists _)
    (fun exchange before after htakes h => ⟨takes_candid htakes h.1, takes_exists htakes h.2⟩)
    ⟨candid, found⟩ hmissed
  rcases takes_probe htakes hcandid with ⟨-, hpresent⟩ | ⟨hnone, -⟩
  · cases hpresent
  · exact absurd hfound hnone

/-- Where a request exists and its probes are candid, an operation leaves both as
they are. -/
theorem kept_of_exists {content : Content}
    (yields : (operation.program settings).Yields trace outcome)
    (follows : Machine.Follows ⟨processor, store⟩ state trace last)
    (candid : state.store.Candid settings.locations.request)
    (found : state.store.content? settings.locations.request = some content) :
    last.store.Candid settings.locations.request ∧
      last.store.content? settings.locations.request = some content := by
  have hcandid := follows.preserves (fun middle => middle.store.Candid _)
    (fun _ _ _ _ htakes h => takes_candid htakes h) candid
  refine ⟨hcandid, ?_⟩
  rcases recorded_or yields follows with ⟨-, hkept⟩ | ⟨earlier, bytes, hcalls, -, -⟩
  · exact hkept.trans found
  · have hquiet := quiet_of_exists yields follows candid (Entries.exists_of_content? found)
    cases hquiet (.write settings.locations.request bytes (.ok ())) (by simp [hcalls])

end Operation

/-! ## While a request is pending -/

/-- The paths that a classification looks at on a boot through the firmware. -/
def Settings.watched (settings : Settings) : List Path :=
  [settings.locations.efiRoot, settings.locations.efivarsDir, settings.locations.offer,
    settings.locations.request]

theorem Settings.forall_watched {settings : Settings} {holds : Path → Prop}
    (files : ∀ path ∈ [settings.locations.efiRoot, settings.locations.efivarsDir,
      settings.locations.offer], holds path)
    (request : holds settings.locations.request) : ∀ path ∈ settings.watched, holds path := by
  intro path member
  simp only [watched, List.mem_cons, List.not_mem_nil, or_false] at member
  rcases member with rfl | rfl | rfl | rfl
  · exact files _ (by simp)
  · exact files _ (by simp)
  · exact files _ (by simp)
  · exact request

/-- The firmware's files are there, and so is a request. -/
def Settings.InPlace (settings : Settings) (entries : Entries) : Prop :=
  entries.Attests settings.watched
    [settings.locations.efiRoot, settings.locations.offer, settings.locations.request]

/-- What an operation comes to while a request is pending. -/
def Operation.Pending : Operation → Outcome → Prop
  | .classify, .status result | .enable, .status result => result = .ok .rebootRequired
  | .isCapable, .capable result => result = .ok true
  | .examineProcessor, .support support => support = ⟨true, false⟩
  | .evaluate _, .report report => report.exitCode = 0 ∧ report.enablePerformed = false
  | _, _ => False

namespace Settings

variable {settings : Settings} {processor : Processor κ} {trace : List Exchange}
  {state last : Machine.State κ Entries}

theorem classify_inPlace {result : Except Failure Status}
    (finds : settings.Finds ⟨processor, store⟩ ⟨true, false⟩)
    (yields : settings.classify.run.Yields trace result)
    (follows : Machine.Follows ⟨processor, store⟩ state trace last)
    (inPlace : settings.InPlace state.store) : result = .ok .rebootRequired := by
  obtain ⟨examination, support, walk, hexamination, rfl, hclassified⟩ := yields_classify yields
  obtain ⟨middle, hfirst, hwalk⟩ := Machine.follows_append.1 follows
  cases finds _ _ _ _ hexamination hfirst
  have hmiddle := inPlace.follows hfirst
  rw [← Machine.follows_calls] at hwalk
  generalize calls walk = walked at hclassified hwalk
  cases hclassified with
  | unsupported hsupported => cases hsupported
  | enabled _ hactive => cases hactive
  | walked h =>
    refine h.result_of_offered true ?_ ?_ ?_ ?_
    · exact fun presence member => (hmiddle.probe hwalk member (by simp [watched])).2 (by simp)
    · exact fun presence member => (hmiddle.probe hwalk member (by simp [watched])).1
    · exact fun presence member => (hmiddle.probe hwalk member (by simp [watched])).2 (by simp)
    · exact fun presence member => (hmiddle.probe hwalk member (by simp [watched])).2 (by simp)

theorem enable_inPlace {result : Except Failure Status}
    (finds : settings.Finds ⟨processor, store⟩ ⟨true, false⟩)
    (yields : settings.enable.run.Yields trace result)
    (follows : Machine.Follows ⟨processor, store⟩ state trace last)
    (inPlace : settings.InPlace state.store) : result = .ok .rebootRequired := by
  obtain ⟨first, classified, rest, hfirst, rfl, henabling⟩ := yields_enable yields
  obtain ⟨middle, hfollows, -⟩ := Machine.follows_append.1 follows
  cases classify_inPlace finds hfirst hfollows inPlace
  generalize calls rest = taken at henabling
  cases henabling with
  | settled => rfl

theorem isCapable_inPlace {result : Except Failure Bool}
    (finds : settings.Finds ⟨processor, store⟩ ⟨true, false⟩)
    (yields : settings.isCapable.run.Yields trace result)
    (follows : Machine.Follows ⟨processor, store⟩ state trace last)
    (inPlace : settings.InPlace state.store) : result = .ok true := by
  obtain ⟨examination, support, rest, hexamination, rfl, hcapability⟩ := yields_isCapable yields
  obtain ⟨middle, hfirst, hrest⟩ := Machine.follows_append.1 follows
  cases finds _ _ _ _ hexamination hfirst
  have hmiddle := inPlace.follows hfirst
  rw [← Machine.follows_calls] at hrest
  generalize calls rest = looked at hcapability hrest
  cases hcapability with
  | unsupported hsupported => cases hsupported
  | active _ hactive => cases hactive
  | looked presence =>
    have hpresence := (hmiddle.probe hrest List.mem_cons_self (by simp [watched])).2 (by simp)
    rw [hpresence]
    rfl

theorem evaluate_inPlace {statusOnly : Bool} {report : Report}
    (finds : settings.Finds ⟨processor, store⟩ ⟨true, false⟩)
    (yields : (settings.evaluate statusOnly).Yields trace report)
    (follows : Machine.Follows ⟨processor, store⟩ state trace last)
    (inPlace : settings.InPlace state.store) : report.conclusion = .settled .rebootRequired := by
  obtain ⟨examination, first, classified, rest, -, hfirst, rfl, hconcluded⟩ :=
    yields_evaluate yields
  obtain ⟨middle, hexamined, hrest⟩ := Machine.follows_append.1 follows
  obtain ⟨later, hfollows, -⟩ := Machine.follows_append.1 hrest
  cases classify_inPlace finds hfirst hfollows (inPlace.follows hexamined)
  generalize report.conclusion = conclusion at hconcluded
  cases hconcluded with
  | settled => rfl

end Settings

/-- Where a request is in place on a processor that every examination finds
inactive, every operation tells that it is pending. -/
theorem Operation.pending_of_inPlace {settings : Settings} {processor : Processor κ}
    {operation : Operation} {trace : List Exchange} {outcome : Outcome}
    {state last : Machine.State κ Entries}
    (finds : settings.Finds ⟨processor, store⟩ ⟨true, false⟩)
    (yields : (operation.program settings).Yields trace outcome)
    (follows : Machine.Follows ⟨processor, store⟩ state trace last)
    (inPlace : settings.InPlace state.store) : operation.Pending outcome := by
  cases operation with
  | classify =>
    obtain ⟨result, hclassify, rfl⟩ := yields.of_map
    exact Settings.classify_inPlace finds hclassify follows inPlace
  | enable =>
    obtain ⟨result, henable, rfl⟩ := yields.of_map
    exact Settings.enable_inPlace finds henable follows inPlace
  | isCapable =>
    obtain ⟨result, hcapable, rfl⟩ := yields.of_map
    exact Settings.isCapable_inPlace finds hcapable follows inPlace
  | examineProcessor =>
    obtain ⟨support, hexamine, rfl⟩ := yields.of_map
    exact finds _ _ _ _ hexamine follows
  | evaluate statusOnly =>
    obtain ⟨report, hevaluate, rfl⟩ := yields.of_map
    have hconclusion := Settings.evaluate_inPlace finds hevaluate follows inPlace
    constructor
    · simp [Report.exitCode, Report.status?, hconclusion, Status.exitCode,
        Status.isEnabledOrPending]
    · simp [Report.enablePerformed, hconclusion]

/-! ## Sessions -/

namespace Session

variable {settings : Settings} {processor : Processor κ} {steps : List (Step Entries)}
  {state : Machine.State κ Entries}

/-- Where a request exists, a session writes nothing and leaves it as it is. -/
theorem quiet_of_exists {content : Content} (processor : Processor κ)
    (candid : state.store.Candid settings.locations.request)
    (spared : ∀ change, Step.alter change ∈ steps → Spares settings.locations.request change)
    (found : state.store.content? settings.locations.request = some content) :
    Writeless (callsMade (run settings ⟨processor, store⟩ steps state).1) ∧
      (run settings ⟨processor, store⟩ steps state).2.store.content?
        settings.locations.request = some content := by
  let holds (middle : Machine.State κ Entries) : Prop :=
    middle.store.Candid settings.locations.request ∧
      middle.store.content? settings.locations.request = some content
  let shows (_ : Operation) (performance : Performance) : Prop :=
    Writeless (Exchange.calls performance.trace)
  have performs : ∀ operation before, holds before →
      shows operation (perform settings ⟨processor, store⟩ operation before).1 ∧
        holds (perform settings ⟨processor, store⟩ operation before).2 := by
    intro operation before ⟨hcandid, hcontent⟩
    obtain ⟨trace, hyields, hfollows, hcalls⟩ :=
      exists_yields_perform settings ⟨processor, store⟩ operation before
    refine ⟨?_, Operation.kept_of_exists hyields hfollows hcandid hcontent⟩
    show Writeless _
    rw [← hcalls]
    exact Operation.quiet_of_exists hyields hfollows hcandid (Entries.exists_of_content? hcontent)
  have alters : ∀ change, Step.alter change ∈ steps → ∀ before, holds before →
      holds { before with store := change before.store } := by
    intro change member before ⟨hcandid, hcontent⟩
    exact ⟨(spared change member).candid hcandid,
      ((spared change member).content? _).trans hcontent⟩
  obtain ⟨hlast, hshows⟩ := run_invariant holds shows performs alters ⟨candid, found⟩
  refine ⟨fun exchange member => ?_, hlast.2⟩
  obtain ⟨operation, performance, hperformed, hexchange⟩ := mem_callsMade member
  exact hshows operation performance hperformed exchange hexchange

/-- A session records no request, or it records one, writes nothing after it, and
leaves it in place. -/
theorem recorded_or (processor : Processor κ)
    (candid : state.store.Candid settings.locations.request)
    (spared : ∀ change, Step.alter change ∈ steps → Spares settings.locations.request change) :
    (∀ exchange ∈ callsMade (run settings ⟨processor, store⟩ steps state).1,
        exchange.isRecording = false) ∨
      ∃ earlier bytes later, callsMade (run settings ⟨processor, store⟩ steps state).1 =
          earlier ++ .write settings.locations.request bytes (.ok ()) :: later ∧
        (∀ exchange ∈ earlier, exchange.isRecording = false) ∧ Writeless later ∧
        (run settings ⟨processor, store⟩ steps state).2.store.content?
          settings.locations.request = some (.file bytes) := by
  induction steps generalizing state with
  | nil => exact .inl (by simp [run, callsMade])
  | cons first rest ih =>
    have hrest : ∀ change, Step.alter change ∈ rest → Spares settings.locations.request change :=
      fun change member => spared change (List.mem_cons_of_mem _ member)
    cases first with
    | alter change =>
      have hspared := spared change List.mem_cons_self
      exact ih (hspared.candid candid) hrest
    | perform operation =>
      obtain ⟨trace, hyields, hfollows, hcalls⟩ :=
        exists_yields_perform settings ⟨processor, store⟩ operation state
      have hcandid := hfollows.preserves (fun middle => middle.store.Candid _)
        (fun _ _ _ _ htakes h => takes_candid htakes h) candid
      have hmade :
          callsMade (run settings ⟨processor, store⟩ (.perform operation :: rest) state).1 =
          calls trace ++ callsMade (run settings ⟨processor, store⟩ rest
            (perform settings ⟨processor, store⟩ operation state).2).1 := by
        rw [hcalls]
        rfl
      rw [hmade]
      -- Either the rest of the session decides, or the request is there from here on.
      rcases Operation.recorded_or hyields hfollows with
        ⟨hnone, -⟩ | ⟨earlier, bytes, hlast, hearlier, hcontent⟩
      · rcases ih hcandid hrest with hrestless | ⟨before, bytes, after, hsplit, hbefore, hafter⟩
        · exact .inl (List.forall_mem_append.2 ⟨hnone, hrestless⟩)
        · refine .inr ⟨calls trace ++ before, bytes, after, ?_, ?_, hafter⟩
          · rw [hsplit, List.append_assoc]
          · exact List.forall_mem_append.2 ⟨hnone, hbefore⟩
      · obtain ⟨hquiet, hkept⟩ := quiet_of_exists processor hcandid hrest hcontent
        refine .inr ⟨earlier, bytes, _, ?_, hearlier.recordless, hquiet, hkept⟩
        rw [hlast, List.append_assoc]
        rfl

/-- At most one write of a session succeeds. -/
theorem recordings_le_one (processor : Processor κ)
    (candid : state.store.Candid settings.locations.request)
    (spared : ∀ change, Step.alter change ∈ steps → Spares settings.locations.request change) :
    (callsMade (run settings ⟨processor, store⟩ steps state).1).countP isRecording ≤ 1 := by
  have hzero {exchanges : List Exchange}
      (h : ∀ exchange ∈ exchanges, exchange.isRecording = false) :
      exchanges.countP isRecording = 0 :=
    List.countP_eq_zero.2 fun exchange member => by simp [h exchange member]
  rcases recorded_or processor candid spared with
    hnone | ⟨earlier, bytes, later, hmade, hearlier, hlater, -⟩
  · rw [hzero hnone]
    omega
  · rw [hmade, List.countP_append, List.countP_cons, hzero hearlier, hzero hlater.recordless]
    simp [isRecording]

/-- A write that succeeds in a session records the request, is the last write, and
leaves its bytes there for good. -/
theorem recorded_last {earlier later : List Exchange} {path : Path} {bytes : Bytes}
    (candid : state.store.Candid settings.locations.request)
    (spared : ∀ change, Step.alter change ∈ steps → Spares settings.locations.request change)
    (made : callsMade (run settings ⟨processor, store⟩ steps state).1 =
      earlier ++ .write path bytes (.ok ()) :: later) :
    path = settings.locations.request ∧ Writeless later ∧
      (run settings ⟨processor, store⟩ steps state).2.store.content?
        settings.locations.request = some (.file bytes) := by
  rcases recorded_or processor candid spared with
    hnone | ⟨before, recorded, after, hmade, hbefore, hafter, hcontent⟩
  · cases hnone (.write path bytes (.ok ())) (by simp [made])
  · obtain ⟨rfl, hsame, rfl⟩ := Exchange.split_unique isRecording hbefore hafter.recordless rfl
      (hmade.symm.trans made)
    cases hsame
    exact ⟨rfl, hafter, hcontent⟩

/-- What is attested stays so in a session that spares the watched paths. -/
theorem attests_run {watched needed : List Path} (processor : Processor κ)
    (attests : state.store.Attests watched needed) (within : needed ⊆ watched)
    (spared : ∀ change, Step.alter change ∈ steps → ∀ path ∈ watched, Spares path change) :
    (run settings ⟨processor, store⟩ steps state).2.store.Attests watched needed := by
  refine (run_invariant (fun middle : Machine.State κ Entries =>
      middle.store.Attests watched needed) (fun _ _ => True)
    (fun operation before hbefore => ⟨trivial, ?_⟩)
    (fun change member before hbefore => hbefore.change (spared change member) within) attests).1
  obtain ⟨trace, -, hfollows, -⟩ :=
    exists_yields_perform settings ⟨processor, store⟩ operation before
  exact hbefore.follows hfollows

/-- Once a request is in place, every operation of a session tells that it is
pending. -/
theorem pending_of_inPlace (finds : settings.Finds ⟨processor, store⟩ ⟨true, false⟩)
    (inPlace : settings.InPlace state.store)
    (spared : ∀ change, Step.alter change ∈ steps → ∀ path ∈ settings.watched, Spares path change) :
    ∀ operation performance, (Step.perform operation, some performance) ∈
      steps.zip (run settings ⟨processor, store⟩ steps state).1 →
      operation.Pending performance.outcome := by
  refine (run_invariant (fun middle => settings.InPlace middle.store)
    (fun operation performance => operation.Pending performance.outcome)
    (fun operation before hbefore => ?_)
    (fun change member before hbefore => hbefore.change (spared change member) ?_) inPlace).2
  · obtain ⟨trace, hyields, hfollows, -⟩ :=
      exists_yields_perform settings ⟨processor, store⟩ operation before
    exact ⟨Operation.pending_of_inPlace finds hyields hfollows hbefore,
      Entries.Attests.follows hbefore hfollows⟩
  · simp [Settings.watched]

/-- Where the firmware's files are there to stay, a request that comes to be there is in
place. -/
theorem inPlace_run (processor : Processor κ)
    (attests : state.store.Attests settings.watched
      [settings.locations.efiRoot, settings.locations.offer])
    (spared : ∀ change, Step.alter change ∈ steps → ∀ path ∈ settings.watched, Spares path change)
    (found : (run settings ⟨processor, store⟩ steps state).2.store.Exists
      settings.locations.request) :
    settings.InPlace (run settings ⟨processor, store⟩ steps state).2.store := by
  have hfiles : (run settings ⟨processor, store⟩ steps state).2.store.Attests settings.watched
      [settings.locations.efiRoot, settings.locations.offer] :=
    attests_run processor attests (by simp [Settings.watched]) spared
  refine ⟨hfiles.candid, fun path member => ?_⟩
  simp only [List.mem_cons, List.not_mem_nil, or_false] at member
  rcases member with rfl | rfl | rfl
  · exact hfiles.found _ (by simp)
  · exact hfiles.found _ (by simp)
  · exact found

/-- In a session that leaves the request's path alone, at most one write succeeds.
It writes the request, it is the last write of the session, and its bytes stay.
From the moment that there is a request, whoever put it there, nothing is written
and the request does not change. If the processor is a fixed and inactive one and
the firmware's files are there to stay, every operation tells from then on that
the request is pending. -/
theorem recorded_once (settings : Settings) (processor : Processor κ)
    (steps : List (Step Entries)) (state : Machine.State κ Entries)
    (candid : state.store.Candid settings.locations.request)
    (spared : ∀ change, Step.alter change ∈ steps → Spares settings.locations.request change) :
    let machine : Machine κ Entries := ⟨processor, store⟩
    let session := run settings machine
    (callsMade (session steps state).1).countP isRecording ≤ 1 ∧
    (∀ earlier path bytes later,
      callsMade (session steps state).1 = earlier ++ .write path bytes (.ok ()) :: later →
      path = settings.locations.request ∧ Writeless later ∧
      (session steps state).2.store.content? settings.locations.request = some (.file bytes)) ∧
    ∀ before after content, steps = before ++ after →
      (session before state).2.store.content? settings.locations.request = some content →
      Writeless (callsMade (session after (session before state).2).1) ∧
      (session steps state).2.store.content? settings.locations.request = some content ∧
      (processor.Fixed → (settings.examineProcessor.run machine state).result = ⟨true, false⟩ →
        (∀ path ∈ [settings.locations.efiRoot, settings.locations.offer],
          state.store.Exists path) →
        (∀ path ∈ [settings.locations.efiRoot, settings.locations.efivarsDir,
            settings.locations.offer], state.store.Candid path ∧
          ∀ change, Step.alter change ∈ steps → Spares path change) →
        ∀ operation performance, (Step.perform operation, some performance) ∈
          after.zip (session after (session before state).2).1 →
          operation.Pending performance.outcome) := by
  intro machine session
  refine ⟨recordings_le_one processor candid spared, ?_, ?_⟩
  · exact fun earlier path bytes later hmade => recorded_last candid spared hmade
  intro before after content hsplit hcontent
  subst hsplit
  have hbefore : ∀ change, Step.alter change ∈ before → Step.alter change ∈ before ++ after :=
    fun change member => List.mem_append_left _ member
  have hafter : ∀ change, Step.alter change ∈ after → Step.alter change ∈ before ++ after :=
    fun change member => List.mem_append_right _ member
  have hlast :
      (session (before ++ after) state).2 = (session after (session before state).2).2 := by
    show (run settings machine (before ++ after) state).2 = _
    rw [run_append]
  -- The request's probes are still candid after the first part of the session.
  have hmiddle : (session before state).2.store.Attests [settings.locations.request] [] :=
    attests_run processor ⟨by simpa using candid, by simp⟩ (by simp)
      fun change member => by simpa using spared change (hbefore change member)
  obtain ⟨hquiet, hkept⟩ := quiet_of_exists processor (hmiddle.candid _ List.mem_cons_self)
    (fun change member => spared change (hafter change member)) hcontent
  refine ⟨hquiet, hlast ▸ hkept, fun fixed dormant hfound hleft => ?_⟩
  have hwatched := Settings.forall_watched hleft ⟨candid, spared⟩
  have inPlace := inPlace_run processor ⟨fun path member => (hwatched path member).1, hfound⟩
    (fun change member path watched => (hwatched path watched).2 change (hbefore change member))
    (Entries.exists_of_content? hcontent)
  have finds : settings.Finds machine ⟨true, false⟩ :=
    dormant ▸ Settings.finds_of_fixed fixed state
  exact pending_of_inPlace finds inPlace fun change member path watched =>
    (hwatched path watched).2 change (hafter change member)

/-- On the stock platform, an enable records the request, and a report after it tells
that it is pending, whatever becomes of the system partition in between. -/
theorem recorded_once_stock :
    let session := run Settings.stock stockMachine
    let later : List (Step Entries) :=
      [.alter (·.insert ⟨"/boot/efi"⟩ {}), .alter (·.erase ⟨"/boot/efi"⟩),
        .perform (.evaluate false)]
    (callsMade (session (.perform .enable :: later) stockStart).1).countP isRecording ≤ 1 ∧
      (session (.perform .enable :: later) stockStart).2.store.content? (Locations.request {}) =
        some (.file [7, 0, 0, 0, 128, 0, 0, 0]) ∧
      ∀ operation performance, (Step.perform operation, some performance) ∈
        later.zip (session later (session [.perform .enable] stockStart).2).1 →
        operation.Pending performance.outcome := by
  intro session later
  have spares {path : Path} (hother : path ≠ ⟨"/boot/efi"⟩) :
      ∀ change, Step.alter change ∈ Step.perform .enable :: later → Spares path change := by
    intro change member
    simp only [later, List.mem_cons, List.not_mem_nil, or_false, reduceCtorEq, false_or,
      or_false, Step.alter.injEq] at member
    rcases member with rfl | rfl
    · exact spares_insert hother _
    · exact spares_erase hother
  obtain ⟨hcount, -, hafter⟩ := recorded_once Settings.stock dormant.processor
    (.perform .enable :: later) stockStart rfl (spares (by decide))
  obtain ⟨-, hkept, hpending⟩ := hafter [.perform .enable] later
    (.file [7, 0, 0, 0, 128, 0, 0, 0]) rfl (by rfl)
  refine ⟨hcount, hkept, hpending (fun _ _ _ _ => rfl) (by rfl) ?_ ?_⟩
  · intro path member
    simp only [List.mem_cons, List.not_mem_nil, or_false] at member
    rcases member with rfl | rfl <;> rfl
  · intro path member
    simp only [List.mem_cons, List.not_mem_nil, or_false] at member
    rcases member with rfl | rfl | rfl <;> exact ⟨rfl, spares (by decide)⟩

end Session

end SgxActivation
