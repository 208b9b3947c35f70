import SgxActivation.Proofs.WriteProtocol

/-!
# Traces that speak for a request

* **`Outcome.TellsPending`** — an operation says that a request is pending; then its trace
  finds one or records one (`Operation.showsRequest`);
* **`Settings.Favourable`** — everything that the trace was answered speaks for an enable;
  whatever may write then ends by telling of a pending request
  (`Favourable.tellsPending`).
-/

namespace SgxActivation

open Exchange Record

/-- Whether an outcome says that a request is pending. -/
def Outcome.TellsPending : Outcome → Prop
  | .status result => result = .ok .rebootRequired
  | .report made => made.status? = some .rebootRequired
  | .capable _ | .support _ => False

/-- A trace that finds a request, or records one. -/
def Settings.ShowsRequest (settings : Settings) (trace : List Exchange) : Prop :=
  .probe settings.locations.request .present ∈ trace ∨
    ∃ bytes, .write settings.locations.request bytes (.ok ()) ∈ trace

theorem Exchange.mem_of_mem_calls {exchange : Exchange} {trace : List Exchange}
    (h : exchange ∈ calls trace) : exchange ∈ trace :=
  (List.mem_filter.1 h).1

namespace Settings

variable {settings : Settings} {trace : List Exchange}

theorem ShowsRequest.mono {wider : List Exchange} (h : settings.ShowsRequest trace)
    (within : trace ⊆ wider) : settings.ShowsRequest wider := by
  rcases h with hfound | ⟨bytes, hwritten⟩
  · exact .inl (within hfound)
  · exact .inr ⟨bytes, within hwritten⟩

theorem showsRequest_classify (h : settings.classify.run.Yields trace (.ok .rebootRequired)) :
    settings.ShowsRequest trace := by
  obtain ⟨examination, seen, -, -, hcalls⟩ := yields_classify_full true h
  refine .inl (mem_of_mem_calls ?_)
  rw [hcalls]
  simp [fullWalk]

theorem showsRequest_enable (h : settings.enable.run.Yields trace (.ok .rebootRequired)) :
    settings.ShowsRequest trace := by
  obtain ⟨first, classified, rest, hfirst, rfl, henabling⟩ := yields_enable h
  generalize hrest : calls rest = taken at henabling
  generalize hresult : (Except.ok _ : Except Failure Status) = result at henabling
  cases henabling with
  | failed failure => cases hresult
  | settled hstatus =>
    cases hresult
    exact (showsRequest_classify hfirst).mono (List.subset_append_left _ _)
  | @attempted _ written htaking =>
    cases written with
    | error failure => cases hresult
    | ok done =>
      cases htaking with
      | @written record _ henough =>
        refine .inr ⟨requestBytes record, List.mem_append_right _ (mem_of_mem_calls ?_)⟩
        rw [hrest]
        simp

end Settings

/-- What tells of a pending request has seen or made it. -/
theorem Operation.showsRequest {settings : Settings} {operation : Operation}
    {trace : List Exchange} {outcome : Outcome}
    (yields : (operation.program settings).Yields trace outcome)
    (pending : outcome.TellsPending) : settings.ShowsRequest trace := by
  cases operation with
  | classify =>
    obtain ⟨result, hclassify, rfl⟩ := yields.of_map
    cases pending
    exact Settings.showsRequest_classify hclassify
  | enable =>
    obtain ⟨result, henable, rfl⟩ := yields.of_map
    cases pending
    exact Settings.showsRequest_enable henable
  | isCapable =>
    obtain ⟨result, -, rfl⟩ := yields.of_map
    exact absurd pending id
  | examineProcessor =>
    obtain ⟨support, -, rfl⟩ := yields.of_map
    exact absurd pending id
  | evaluate statusOnly =>
    obtain ⟨⟨support, conclusion⟩, hevaluate, rfl⟩ := yields.of_map
    obtain ⟨examination, first, classified, rest, -, hfirst, rfl, hconcluded⟩ :=
      Settings.yields_evaluate hevaluate
    replace pending : Report.status? ⟨support, conclusion⟩ = some .rebootRequired := pending
    change settings.Concluded statusOnly classified rest conclusion at hconcluded
    have hwithin : first ⊆ examination ++ (first ++ rest) :=
      List.subset_append_of_subset_right _ (List.subset_append_left _ _)
    have hbehind : rest ⊆ examination ++ (first ++ rest) :=
      List.subset_append_of_subset_right _ (List.subset_append_right _ _)
    cases hconcluded with
    | failed failure | refused => cases pending
    | settled hstatus =>
      cases pending
      exact (Settings.showsRequest_classify hfirst).mono hwithin
    | requested hwanted henable => exact (Settings.showsRequest_enable henable).mono hbehind
    | overtaken hwanted hother henable => exact absurd (Option.some.inj pending) hother

/-! ## Favourable traces -/

/-- Everything that the trace was answered speaks for an enable. -/
structure Settings.Favourable (settings : Settings) (trace : List Exchange) : Prop where
  finds : ∀ examination support, examination ⊆ trace →
    settings.examineProcessor.Yields examination support → support = ⟨true, false⟩
  root : ∀ presence, .probe settings.locations.efiRoot presence ∈ trace → presence = .present
  offer : ∀ presence, .probe settings.locations.offer presence ∈ trace → presence = .present
  clear : ∀ path presence, .probe path presence ∈ trace → presence.IsClear
  read : ∀ result, .read settings.locations.offer Offer.size result ∈ trace →
    ∃ record, Offer.size ≤ record.length ∧ result = .ok record
  written : ∀ path bytes result, .write path bytes result ∈ trace → result = .ok ()

namespace Settings.Favourable

variable {settings : Settings} {trace : List Exchange}

theorem mono {part : List Exchange} (h : settings.Favourable trace) (within : part ⊆ trace) :
    settings.Favourable part where
  finds examination support member := h.finds examination support (List.Subset.trans member within)
  root presence member := h.root presence (within member)
  offer presence member := h.offer presence (within member)
  clear path presence member := h.clear path presence (within member)
  read result member := h.read result (within member)
  written path bytes result member := h.written path bytes result (within member)

theorem classify {result : Except Failure Status} (h : settings.Favourable trace)
    (yields : settings.classify.run.Yields trace result) :
    ∃ found : Bool, result = .ok (if found then .rebootRequired else .interfaceAvailable) := by
  obtain ⟨examination, support, walk, hexamination, rfl, hclassified⟩ := yields_classify yields
  cases h.finds examination support (List.subset_append_left _ _) hexamination
  have hwalk : ∀ exchange, exchange ∈ calls walk → exchange ∈ examination ++ walk :=
    fun exchange member => List.mem_append_right _ (mem_of_mem_calls member)
  generalize calls walk = walked at hclassified hwalk
  cases hclassified with
  | unsupported hsupported => cases hsupported
  | enabled _ hactive => cases hactive
  | walked hwalked =>
    obtain ⟨found, -, hresult⟩ := hwalked.exists_found
      (fun presence member => h.root presence (hwalk _ member))
      (fun presence member => h.clear _ presence (hwalk _ member))
      (fun presence member => h.offer presence (hwalk _ member))
      (fun presence member => h.clear _ presence (hwalk _ member))
    exact ⟨found, hresult⟩

theorem enable {result : Except Failure Status} (h : settings.Favourable trace)
    (yields : settings.enable.run.Yields trace result) : result = .ok .rebootRequired := by
  obtain ⟨first, classified, rest, hfirst, rfl, henabling⟩ := yields_enable yields
  obtain ⟨found, rfl⟩ := (h.mono (List.subset_append_left _ _)).classify hfirst
  have hrest : ∀ exchange, exchange ∈ calls rest → exchange ∈ first ++ rest :=
    fun exchange member => List.mem_append_right _ (mem_of_mem_calls member)
  generalize calls rest = taken at henabling hrest
  cases found with
  | true =>
    cases henabling with
    | settled => rfl
  | false =>
    -- Neither the read nor the write can have gone wrong, as both are in the trace.
    cases henabling with
    | settled hstatus => exact absurd rfl hstatus
    | @attempted _ written htaking =>
      cases htaking with
      | @unread failure =>
        obtain ⟨record, -, hread⟩ := h.read (.error failure) (hrest _ (by simp))
        cases hread
      | @short record failure hshort =>
        obtain ⟨record, henough, hread⟩ := h.read (.ok record) (hrest _ (by simp))
        cases hread
        omega
      | @written record =>
        have hwritten : written = .ok () :=
          h.written settings.locations.request (requestBytes record) written
            (hrest _ (by simp))
        rw [hwritten]
        rfl

/-- Along a favourable trace, whatever may write ends with a pending request. -/
theorem tellsPending {operation : Operation} {outcome : Outcome} (h : settings.Favourable trace)
    (may : operation.mayWrite = true)
    (yields : (operation.program settings).Yields trace outcome) : outcome.TellsPending := by
  cases operation with
  | classify | isCapable | examineProcessor => cases may
  | enable =>
    obtain ⟨result, henable, rfl⟩ := yields.of_map
    exact h.enable henable
  | evaluate statusOnly =>
    cases statusOnly with
    | true => cases may
    | false =>
      obtain ⟨⟨support, conclusion⟩, hevaluate, rfl⟩ := yields.of_map
      obtain ⟨examination, first, classified, rest, -, hfirst, rfl, hconcluded⟩ :=
        yields_evaluate hevaluate
      change settings.Concluded false classified rest conclusion at hconcluded
      have hwithin : first ⊆ examination ++ (first ++ rest) :=
        List.subset_append_of_subset_right _ (List.subset_append_left _ _)
      have hbehind : rest ⊆ examination ++ (first ++ rest) :=
        List.subset_append_of_subset_right _ (List.subset_append_right _ _)
      obtain ⟨found, rfl⟩ := (h.mono hwithin).classify hfirst
      cases found with
      | true =>
        cases hconcluded with
        | settled => rfl
      | false =>
        cases hconcluded with
        | settled hstatus => cases hstatus rfl
        | requested => rfl
        | overtaken hwanted hother henable =>
          exact absurd (Except.ok.inj ((h.mono hbehind).enable henable)) hother
        | refused hwanted henable => cases (h.mono hbehind).enable henable

end Settings.Favourable

/-- Somewhere in the trace, a classification found that the firmware accepts a request. -/
def Settings.FoundAvailable (settings : Settings) (trace : List Exchange) : Prop :=
  ∃ earlier first later, trace = earlier ++ first ++ later ∧
    settings.classify.run.Yields first (.ok .interfaceAvailable)

end SgxActivation
