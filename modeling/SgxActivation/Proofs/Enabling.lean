import SgxActivation.Session
import SgxActivation.Proofs.Classification
import SgxActivation.Proofs.Record

/-!
# Enable and report along their traces

What an enable does after its classification (**`Enabling`**), what a report is
made of (**`Concluded`**) and what a capability query answers (**`Capability`**).
A write comes at one place only: `leadUp` lists the calls of an enable that gets
there, and `yields_enable_writes` says that any other enable writes nothing.
-/

namespace SgxActivation

variable {α β : Type}

open Exchange Record

theorem Program.Yields.of_map {f : α → β} {program : Program α} {trace : List Exchange}
    {result : β} (h : (f <$> program).Yields trace result) :
    ∃ a, program.Yields trace a ∧ result = f a := by
  rw [Program.map_eq] at h
  obtain ⟨first, a, second, hfirst, hsecond, rfl⟩ := h.split
  cases hsecond
  exact ⟨a, by simpa using hfirst, rfl⟩

namespace Settings

/-- The calls that take up an offer, and what comes of them. -/
inductive TakingUp (settings : Settings) : List Exchange → Except Failure Unit → Prop
  | unread {failure} :
      TakingUp settings [.read settings.locations.offer Offer.size (.error failure)]
        (.error failure)
  | short {record failure} : record.length < Offer.size → Offer.ofBytes record = .error failure →
      TakingUp settings [.read settings.locations.offer Offer.size (.ok record)] (.error failure)
  | written {record written} : Offer.size ≤ record.length →
      TakingUp settings [.read settings.locations.offer Offer.size (.ok record),
        .write settings.locations.request (requestBytes record) written] written

/-- What an enable does about the outcome of its classification. -/
inductive Enabling (settings : Settings) :
    Except Failure Status → List Exchange → Except Failure Status → Prop
  | failed (failure) : Enabling settings (.error failure) [] (.error failure)
  | settled {status} : status ≠ .interfaceAvailable →
      Enabling settings (.ok status) [] (.ok status)
  | attempted {rest result} : TakingUp settings rest result →
      Enabling settings (.ok .interfaceAvailable) rest (result.map fun _ => .rebootRequired)

/-- What a report concludes from the outcome of its classification, and the
trace of the enable that it may go on to. -/
inductive Concluded (settings : Settings) (statusOnly : Bool) :
    Except Failure Status → List Exchange → Conclusion → Prop
  | failed (failure) :
      Concluded settings statusOnly (.error failure) []
        (concludeFailure Failure.statusExplanation failure)
  | settled {status} : (status = .interfaceAvailable → statusOnly = true) →
      Concluded settings statusOnly (.ok status) [] (.settled status)
  | requested {rest} : statusOnly = false →
      settings.enable.run.Yields rest (.ok .rebootRequired) →
      Concluded settings statusOnly (.ok .interfaceAvailable) rest .requested
  | overtaken {rest status} : statusOnly = false → status ≠ .rebootRequired →
      settings.enable.run.Yields rest (.ok status) →
      Concluded settings statusOnly (.ok .interfaceAvailable) rest (.settled status)
  | refused {rest failure} : statusOnly = false →
      settings.enable.run.Yields rest (.error failure) →
      Concluded settings statusOnly (.ok .interfaceAvailable) rest
        (concludeFailure Failure.enableExplanation failure)

/-- What a capability query answers after its examination, and the calls that it
makes for it. -/
inductive Capability (settings : Settings) :
    Support → List Exchange → Except Failure Bool → Prop
  | unsupported {support} : support.supported = false → Capability settings support [] (.ok false)
  | active {support} : support.supported = true → support.active = true →
      Capability settings support [] (.ok true)
  | looked (presence : Presence) :
      Capability settings ⟨true, false⟩ [.probe settings.locations.offer presence]
        (judge settings.locations.offer (variableRefusal settings.locations.offer) presence)

variable {settings : Settings} {trace : List Exchange}

theorem yields_takeUpOffer {result : Except Failure Unit}
    (h : settings.takeUpOffer.run.Yields trace result) :
    TakingUp settings (calls trace) result := by
  simp only [takeUpOffer, Attempt.run_bind, Attempt.run_read] at h
  cases h with
  | @read _ _ _ outcome rest _ hrest =>
    cases outcome with
    | error failure =>
      cases hrest
      exact .unread
    | ok record =>
      simp only [Program.andThen, Attempt.run_ofExcept] at hrest
      by_cases henough : Offer.size ≤ record.length
      · obtain ⟨offer, hoffer, hbytes⟩ := Offer.ofBytes_of_le henough
        rw [hoffer] at hrest
        cases hrest with
        | note hrest =>
          rw [Attempt.run_write, hbytes] at hrest
          cases hrest with
          | @write _ _ _ written _ _ hrest =>
            cases written with
            | error failure =>
              cases hrest
              exact .written henough
            | ok done =>
              cases hrest with
              | note hrest =>
                cases hrest
                exact .written henough
      · -- Too few bytes make no offer, and the attempt ends before it writes.
        have hshort : record.length < Offer.size := by omega
        obtain ⟨failure, hfailure⟩ : ∃ failure, Offer.ofBytes record = .error failure :=
          ⟨_, Offer.ofBytes_of_lt hshort⟩
        rw [hfailure] at hrest
        cases hrest
        exact .short hshort hfailure

/-- Every enable classifies first and then does as `Enabling` says. -/
theorem yields_enable {result : Except Failure Status}
    (h : settings.enable.run.Yields trace result) :
    ∃ first classified rest, settings.classify.run.Yields first classified ∧
      trace = first ++ rest ∧ Enabling settings classified (calls rest) result := by
  rcases Attempt.yields_bind h with
    ⟨failure, hfailed, rfl⟩ | ⟨first, status, rest, hfirst, hrest, rfl⟩
  · exact ⟨trace, .error failure, [], hfailed, by simp, .failed failure⟩
  refine ⟨first, .ok status, rest, hfirst, rfl, ?_⟩
  by_cases havailable : status = .interfaceAvailable
  · subst havailable
    rcases Attempt.yields_bind hrest with
      ⟨failure, hfailed, rfl⟩ | ⟨taking, done, last, htaking, hlast, rfl⟩
    · exact .attempted (yields_takeUpOffer hfailed)
    · cases hlast
      rw [List.append_nil]
      exact .attempted (yields_takeUpOffer htaking)
  · rw [if_neg havailable] at hrest
    obtain ⟨last, hcalls, hlast⟩ := Attempt.yields_log_bind hrest
    cases hlast
    rw [hcalls]
    exact .settled havailable

theorem yields_concludeEnable {conclusion : Conclusion}
    (h : settings.concludeEnable.Yields trace conclusion) :
    Concluded settings false (.ok .interfaceAvailable) trace conclusion := by
  unfold concludeEnable at h
  obtain ⟨first, result, rest, hfirst, hrest, rfl⟩ := h.split
  split at hrest
  · cases hrest
    rw [List.append_nil]
    exact .requested rfl hfirst
  · rename_i status hreboot
    cases hrest
    rw [List.append_nil]
    exact .overtaken rfl hreboot hfirst
  · cases hrest
    rw [List.append_nil]
    exact .refused rfl hfirst

theorem yields_conclude {statusOnly : Bool} {conclusion : Conclusion}
    (h : (settings.conclude statusOnly).Yields trace conclusion) :
    ∃ first classified rest, settings.classify.run.Yields first classified ∧
      trace = first ++ rest ∧ Concluded settings statusOnly classified rest conclusion := by
  unfold conclude at h
  obtain ⟨first, classified, rest, hfirst, hrest, rfl⟩ := h.split
  refine ⟨first, classified, rest, hfirst, rfl, ?_⟩
  split at hrest
  · cases hrest
    exact .failed _
  · cases statusOnly with
    | true =>
      cases hrest
      exact .settled fun _ => rfl
    | false => exact yields_concludeEnable hrest
  · rename_i status havailable
    cases hrest
    exact .settled fun h => absurd h havailable

/-- Without an enable, nothing comes after the classification. -/
theorem Concluded.rest_eq_nil {statusOnly : Bool} {classified : Except Failure Status}
    {rest : List Exchange} {conclusion : Conclusion}
    (h : Concluded settings statusOnly classified rest conclusion)
    (unwanted : statusOnly = true ∨ classified ≠ .ok .interfaceAvailable) : rest = [] := by
  cases h with
  | failed | settled => rfl
  | requested hwanted | overtaken hwanted | refused hwanted => simp [hwanted] at unwanted

/-- Every report examines the processor, classifies, and concludes as
`Concluded` says. -/
theorem yields_evaluate {statusOnly : Bool} {report : Report}
    (h : (settings.evaluate statusOnly).Yields trace report) :
    ∃ examination first classified rest,
      settings.examineProcessor.Yields examination report.support ∧
      settings.classify.run.Yields first classified ∧ trace = examination ++ (first ++ rest) ∧
      Concluded settings statusOnly classified rest report.conclusion := by
  unfold evaluate at h
  obtain ⟨examination, support, second, hexamination, hsecond, rfl⟩ := h.split
  obtain ⟨third, conclusion, last, hthird, hlast, rfl⟩ := hsecond.split
  cases hlast
  obtain ⟨first, classified, rest, hfirst, rfl, hconcluded⟩ := yields_conclude hthird
  exact ⟨examination, first, classified, rest, hexamination, hfirst, by simp, hconcluded⟩

/-- A report that leaves out the enable only looks. -/
theorem yields_evaluate_looks {report : Report}
    (h : (settings.evaluate true).Yields trace report) :
    ∀ exchange ∈ calls trace, exchange.isLook = true := by
  obtain ⟨examination, first, classified, rest, hexamination, hfirst, rfl, hconcluded⟩ :=
    yields_evaluate h
  rw [hconcluded.rest_eq_nil (.inl rfl), List.append_nil, calls_append]
  exact List.forall_mem_append.2
    ⟨yields_examineProcessor_looks hexamination, yields_classify_looks hfirst⟩

/-- Every capability query examines the processor and looks for an offer only if
that leaves the answer open. -/
theorem yields_isCapable {result : Except Failure Bool}
    (h : settings.isCapable.run.Yields trace result) :
    ∃ examination support rest, settings.examineProcessor.Yields examination support ∧
      trace = examination ++ rest ∧ Capability settings support (calls rest) result := by
  rcases Attempt.yields_bind h with
    ⟨failure, hfailed, rfl⟩ | ⟨examination, support, rest, hfirst, hrest, rfl⟩
  · obtain ⟨support, -, herror⟩ := Attempt.yields_lift hfailed
    cases herror
  obtain ⟨_, hexamination, heq⟩ := Attempt.yields_lift hfirst
  cases heq
  refine ⟨examination, support, rest, hexamination, rfl, ?_⟩
  obtain ⟨supported, active⟩ := support
  cases supported with
  | false =>
    cases hrest
    exact .unsupported rfl
  | true =>
    cases active with
    | true =>
      cases hrest
      exact .active rfl rfl
    | false =>
      obtain ⟨presence, hcalls, rfl⟩ := yields_exists? hrest
      rw [hcalls]
      exact .looked presence

theorem yields_isCapable_looks {result : Except Failure Bool}
    (h : settings.isCapable.run.Yields trace result) :
    ∀ exchange ∈ calls trace, exchange.isLook = true := by
  obtain ⟨examination, support, rest, hexamination, rfl, hcapability⟩ := yields_isCapable h
  rw [calls_append]
  generalize calls rest = looked at hcapability
  refine List.forall_mem_append.2 ⟨yields_examineProcessor_looks hexamination, ?_⟩
  cases hcapability <;> simp [isLook]

/-! ## Where writes stand -/

/-- The calls of an enable right up to its write. -/
def leadUp (settings : Settings) (examination : List Exchange) (seen : Presence)
    (record : Bytes) : List Exchange :=
  calls examination ++
    (settings.fullWalk seen .absent ++ [.read settings.locations.offer Offer.size (.ok record)])

theorem writeless_leadUp {examination : List Exchange} {support : Support} (seen : Presence)
    (record : Bytes) (h : settings.examineProcessor.Yields examination support) :
    Writeless (settings.leadUp examination seen record) := by
  refine (writeless_of_isLook (yields_examineProcessor_looks h)).append ?_
  simp [Writeless, fullWalk, approach, isWrite]

/-- An enable writes nothing, or it writes last, right after it has walked to the
missing request and read an offer. -/
theorem yields_enable_writes {result : Except Failure Status}
    (h : settings.enable.run.Yields trace result) :
    Writeless (calls trace) ∨
      ∃ examination seen record written,
        settings.examineProcessor.Yields examination ⟨true, false⟩ ∧ seen.IsClear ∧
        Offer.size ≤ record.length ∧ result = written.map (fun _ => .rebootRequired) ∧
        calls trace = settings.leadUp examination seen record ++
          [.write settings.locations.request (requestBytes record) written] := by
  obtain ⟨first, classified, rest, hfirst, rfl, henabling⟩ := yields_enable h
  have hlooks := writeless_of_isLook (yields_classify_looks hfirst)
  rw [calls_append]
  generalize calls rest = taken at henabling
  cases henabling with
  | failed failure => exact .inl (by simpa using hlooks)
  | settled hstatus => exact .inl (by simpa using hlooks)
  | attempted htaking =>
    cases htaking with
    | unread | short => exact .inl (hlooks.append (by simp [Writeless, isWrite]))
    | written henough =>
      -- Its classification left the interface available, and only a full walk does.
      obtain ⟨examination, seen, hexamination, hclear, hcalls⟩ :=
        yields_classify_full false hfirst
      refine .inr ⟨examination, seen, _, _, hexamination, hclear, henough, rfl, ?_⟩
      simp [hcalls, leadUp]

end Settings

end SgxActivation
