import SgxActivation.Proofs.StoreCalls
import SgxActivation.Proofs.WriteProtocol

/-!
# When a report says that it performed the enable

A report classifies, and its enable classifies again. Between the two another
process may record a request of its own: the report is then **overtaken**.

* `Settings.enablePerformed_iff` — a report says that it performed the enable
  exactly if it wrote the request or was overtaken, and what it says is about its
  own writing exactly if it was not overtaken;
* `Settings.enablePerformed_unwritten` — a report that was.
-/

namespace SgxActivation

variable {κ σ : Type}

open Exchange Record

namespace Settings

variable {settings : Settings} {trace : List Exchange}

/-- A full walk that finds the request ends in nothing but the pending reboot. -/
theorem Walk.result_of_present {seen : Presence} {result : Except Failure Status}
    (h : Walk settings (settings.fullWalk seen .present) result) :
    result = .ok .rebootRequired := by
  generalize hwalk : settings.fullWalk seen .present = walk at h
  cases h with
  | requestBlocked hclear hblocked =>
    simp only [fullWalk, approach, List.cons_append, List.nil_append, List.cons.injEq,
      Exchange.probe.injEq, true_and, and_true] at hwalk
    cases hwalk.2
    cases hblocked
  | requestMissing hclear => simp [fullWalk, approach] at hwalk
  | requestFound hclear => rfl
  | _ => simp [fullWalk, approach] at hwalk

/-- An enable whose calls to the store are those of a walk that finds a request
tells the pending reboot. -/
theorem enable_of_present {seen : Presence} {result : Except Failure Status}
    (h : settings.enable.run.Yields trace result)
    (hcalls : storeCalls trace = settings.fullWalk seen .present) :
    result = .ok .rebootRequired := by
  obtain ⟨first, classified, rest, hfirst, rfl, henabling⟩ := yields_enable h
  rw [storeCalls_append] at hcalls
  have hclassified (hrest : calls rest = []) : classified = .ok .rebootRequired := by
    rw [storeCalls_of_calls hrest, List.append_nil] at hcalls
    rcases yields_classify_storeCalls hfirst with hnone | hwalk
    · cases hnone.symm.trans hcalls
    · rw [hcalls] at hwalk
      exact hwalk.result_of_present
  generalize htaken : calls rest = taken at henabling hclassified
  cases henabling with
  | failed failure => cases hclassified rfl
  | settled hstatus => exact hclassified rfl
  | attempted htaking =>
    -- Its classification took up all four calls, and none is left to read the offer.
    obtain ⟨seen', -, hwalk⟩ := storeCalls_classify_full false hfirst
    have hlength := congrArg List.length hcalls
    rw [hwalk, List.length_append, length_fullWalk, length_fullWalk] at hlength
    have hnone : storeCalls rest = [] := List.eq_nil_of_length_eq_zero (by omega)
    unfold storeCalls at hnone
    rw [htaken] at hnone
    cases htaking <;> cases hnone

/-- The request was written, and the write succeeded. -/
def Wrote (settings : Settings) (trace : List Exchange) : Prop :=
  ∃ bytes, .write settings.locations.request bytes (.ok ()) ∈ calls trace

/-- A first walk missed the request, and a second one, the last that was asked of
the store, found it. -/
def Overtaken (settings : Settings) (trace : List Exchange) : Prop :=
  ∃ seen later, storeCalls trace =
    settings.fullWalk seen .absent ++ settings.fullWalk later .present

theorem not_wrote_of_overtaken (h : settings.Overtaken trace) : ¬ settings.Wrote trace := by
  obtain ⟨seen, later, hcalls⟩ := h
  rintro ⟨bytes, member⟩
  have hwrite : .write settings.locations.request bytes (.ok ()) ∈ storeCalls trace :=
    List.mem_filter.2 ⟨member, rfl⟩
  rw [hcalls] at hwrite
  simp [fullWalk, approach] at hwrite

theorem enable_of_wrote {result : Except Failure Status}
    (h : settings.enable.run.Yields trace result) (wrote : settings.Wrote trace) :
    result = .ok .rebootRequired := by
  obtain ⟨bytes, member⟩ := wrote
  rcases yields_enable_writes h with
    hnone | ⟨examination, seen, record, written, hexamination, -, -, rfl, hcalls⟩
  · cases hnone _ member
  · rw [hcalls, List.mem_append] at member
    rcases member with hearlier | hlast
    · cases writeless_leadUp seen record hexamination _ hearlier
    · cases List.mem_singleton.1 hlast
      rfl

/-- An enable that ends with the pending reboot wrote the request or found it. -/
theorem wrote_or_found (h : settings.enable.run.Yields trace (.ok .rebootRequired)) :
    settings.Wrote trace ∨ ∃ seen, storeCalls trace = settings.fullWalk seen .present := by
  obtain ⟨first, classified, rest, hfirst, rfl, henabling⟩ := yields_enable h
  generalize htaken : calls rest = taken at henabling
  generalize hresult : (Except.ok _ : Except Failure Status) = result at henabling
  cases henabling with
  | failed failure => cases hresult
  | settled hstatus =>
    cases hresult
    obtain ⟨seen, -, hwalk⟩ := storeCalls_classify_full true hfirst
    refine .inr ⟨seen, ?_⟩
    rw [storeCalls_append, hwalk, storeCalls_of_calls htaken]
    rfl
  | @attempted _ written htaking =>
    cases written with
    | error failure => cases hresult
    | ok done =>
      cases htaking with
      | @written record _ henough => exact .inl ⟨requestBytes record, by simp [htaken]⟩

/-- After a classification that led to it, an enable ends with the pending reboot
exactly if it wrote the request or the two together were overtaken. -/
theorem enable_iff {first : List Exchange} {result : Except Failure Status}
    (hfirst : settings.classify.run.Yields first (.ok .interfaceAvailable))
    (h : settings.enable.run.Yields trace result) :
    result = .ok .rebootRequired ↔ settings.Wrote trace ∨ settings.Overtaken (first ++ trace) := by
  obtain ⟨seen, -, hwalk⟩ := storeCalls_classify_full false hfirst
  unfold Overtaken
  rw [storeCalls_append, hwalk]
  constructor
  · rintro rfl
    rcases wrote_or_found h with hwrote | ⟨later, hfound⟩
    · exact .inl hwrote
    · exact .inr ⟨seen, later, by rw [hfound]; rfl⟩
  · rintro (hwrote | ⟨seen', later, hwalks⟩)
    · exact enable_of_wrote h hwrote
    · -- Both sides begin with a walk of four probes, so the rests are equal.
      exact enable_of_present h (List.append_inj hwalks rfl).2

/-- One classification is too short to be overtaken. -/
theorem not_overtaken_classify {result : Except Failure Status}
    (h : settings.classify.run.Yields trace result) : ¬ settings.Overtaken trace := by
  rintro ⟨seen, later, hwalks⟩
  have hlength := congrArg List.length hwalks
  have hshort := length_classify_le h
  rw [List.length_append, length_fullWalk, length_fullWalk] at hlength
  omega

/-- What only looks has not written. -/
theorem not_wrote_of_looks (h : ∀ exchange ∈ calls trace, exchange.isLook = true) :
    ¬ settings.Wrote trace := by
  rintro ⟨bytes, member⟩
  cases h _ member

theorem wrote_append {first : List Exchange}
    (h : ∀ exchange ∈ calls first, exchange.isLook = true) :
    settings.Wrote (first ++ trace) ↔ settings.Wrote trace := by
  constructor
  · rintro ⟨bytes, member⟩
    rw [calls_append, List.mem_append] at member
    rcases member with hfirst | hrest
    · cases h _ hfirst
    · exact ⟨bytes, hrest⟩
  · rintro ⟨bytes, member⟩
    exact ⟨bytes, by simp [member]⟩

/-- A report concludes with its request being in place exactly if it wrote the
request or was overtaken. -/
theorem requested_iff {statusOnly : Bool} {report : Report}
    (h : (settings.evaluate statusOnly).Yields trace report) :
    report.conclusion = .requested ↔ settings.Wrote trace ∨ settings.Overtaken trace := by
  obtain ⟨examination, first, classified, rest, hexamination, hfirst, rfl, hconcluded⟩ :=
    yields_evaluate h
  have hlooks := yields_classify_looks hfirst
  have hovertaken : settings.Overtaken (examination ++ (first ++ rest)) ↔
      settings.Overtaken (first ++ rest) := by
    unfold Overtaken
    rw [storeCalls_append, storeCalls_examineProcessor hexamination, List.nil_append]
  rw [wrote_append (yields_examineProcessor_looks hexamination), hovertaken, wrote_append hlooks]
  -- Without an enable there is neither a write nor a second walk.
  have hquiet : ¬ (settings.Wrote [] ∨ settings.Overtaken (first ++ [])) := by
    rw [List.append_nil]
    rintro (hwrote | hwalks)
    · exact not_wrote_of_looks (by simp) hwrote
    · exact not_overtaken_classify hfirst hwalks
  generalize report.conclusion = conclusion at hconcluded
  cases hconcluded with
  | failed failure => exact iff_of_false (by simp [concludeFailure]) hquiet
  | settled => exact iff_of_false (by simp) hquiet
  | requested hwanted henable => exact iff_of_true rfl ((enable_iff hfirst henable).1 rfl)
  | overtaken hwanted hstatus henable =>
    refine iff_of_false (by simp) fun h => ?_
    cases (enable_iff hfirst henable).2 h
    exact hstatus rfl
  | refused hwanted henable =>
    refine iff_of_false (by simp [concludeFailure]) fun h => ?_
    cases (enable_iff hfirst henable).2 h

/-- A report says that it performed the enable exactly if it wrote the request or
was overtaken by someone else's. So it tells the truth about its own writing
exactly if it was not overtaken. -/
theorem enablePerformed_iff (settings : Settings) (machine : Machine κ σ) (statusOnly : Bool)
    (state : Machine.State κ σ) :
    let execution := (settings.evaluate statusOnly).run machine state
    (execution.result.enablePerformed = true ↔
      settings.Wrote execution.trace ∨ settings.Overtaken execution.trace) ∧
    ((execution.result.enablePerformed = true ↔ settings.Wrote execution.trace) ↔
      ¬ settings.Overtaken execution.trace) := by
  intro execution
  obtain ⟨trace, hyields, -, hcalls⟩ :=
    (settings.evaluate statusOnly).exists_yields_follows machine state
  have hperformed : execution.result.enablePerformed = true ↔
      execution.result.conclusion = .requested := by
    unfold Report.enablePerformed
    cases execution.result.conclusion <;> simp
  have hiff : execution.result.enablePerformed = true ↔
      settings.Wrote execution.trace ∨ settings.Overtaken execution.trace := by
    have hrequested := requested_iff hyields
    unfold Wrote Overtaken storeCalls at hrequested ⊢
    rw [hcalls] at hrequested
    exact hperformed.trans hrequested
  refine ⟨hiff, fun htruthful hovertaken => ?_, fun hundisturbed => ?_⟩
  · exact not_wrote_of_overtaken hovertaken (htruthful.1 (hiff.2 (.inr hovertaken)))
  · rw [hiff]
    exact ⟨fun h => h.resolve_right hundisturbed, .inl⟩

/-- The stock platform, except that another process records a request between the
first and the second probe for it. -/
def contested : Machine.State Nat Scripted.Entries :=
  ⟨0, (Scripted.offering {}).insert (Locations.request {}) { probes := [.absent, .present] }⟩

/-- A report of an enable that it did not perform: it wrote nothing at all. -/
theorem enablePerformed_unwritten :
    let execution := (Settings.stock.evaluate false).run Scripted.stockMachine contested
    execution.result.enablePerformed = true ∧ ¬ Settings.stock.Wrote execution.trace := by
  refine ⟨by rfl, ?_⟩
  have hquiet : (calls ((Settings.stock.evaluate false).run Scripted.stockMachine
      contested).trace).all (fun exchange => !exchange.isWrite) = true := by rfl
  rintro ⟨bytes, member⟩
  cases List.all_eq_true.1 hquiet _ member

end Settings

end SgxActivation
