import SgxActivation.Proofs.Enabling
import SgxActivation.Proofs.ScriptedStore
import SgxActivation.Proofs.Sessions

/-!
# The write protocol

The one write that an operation may make, whatever the machine answers:

* `Operation.writes_guarded` — an operation writes nothing, or it is one that may
  and its last call is a write to the request, which a fresh examination, a full
  walk and an offer led up to;
* `Session.write_protocol` — so it is for every write in every session.
-/

namespace SgxActivation

variable {κ σ : Type}

open Exchange Record

/-- Whether an operation may write. -/
def Operation.mayWrite : Operation → Bool
  | .enable | .evaluate false => true
  | _ => false

/-- A trace that writes nothing, or that ends with the one write that its lead-up
allows for. -/
def Settings.Guarded (settings : Settings) (trace : List Exchange) : Prop :=
  Writeless (calls trace) ∨
    ∃ earlier examination seen record written, Writeless earlier ∧
      settings.examineProcessor.Yields examination ⟨true, false⟩ ∧ seen.IsClear ∧
      Offer.size ≤ record.length ∧
      calls trace = earlier ++ settings.leadUp examination seen record ++
        [.write settings.locations.request (requestBytes record) written]

namespace Settings

variable {settings : Settings} {trace : List Exchange}

theorem Guarded.after {first : List Exchange} (h : settings.Guarded trace)
    (hfirst : Writeless (calls first)) : settings.Guarded (first ++ trace) := by
  rcases h with hnone | ⟨earlier, examination, seen, record, written, hearlier, hguard⟩
  · exact .inl (by rw [calls_append]; exact hfirst.append hnone)
  · obtain ⟨hexamination, hclear, henough, hcalls⟩ := hguard
    exact .inr ⟨calls first ++ earlier, examination, seen, record, written,
      hfirst.append hearlier, hexamination, hclear, henough, by simp [hcalls]⟩

theorem guarded_enable {result : Except Failure Status}
    (h : settings.enable.run.Yields trace result) : settings.Guarded trace := by
  rcases yields_enable_writes h with
    hnone | ⟨examination, seen, record, written, hexamination, hclear, henough, -, hcalls⟩
  · exact .inl hnone
  · exact .inr ⟨[], examination, seen, record, written, writeless_nil, hexamination, hclear,
      henough, by simpa using hcalls⟩

theorem guarded_evaluate {statusOnly : Bool} {report : Report}
    (h : (settings.evaluate statusOnly).Yields trace report) :
    settings.Guarded trace ∧ (statusOnly = true → Writeless (calls trace)) := by
  obtain ⟨examination, first, classified, rest, hexamination, hfirst, rfl, hconcluded⟩ :=
    yields_evaluate h
  have hquiet : Writeless (calls (examination ++ first)) := by
    rw [calls_append]
    exact (writeless_of_isLook (yields_examineProcessor_looks hexamination)).append
      (writeless_of_isLook (yields_classify_looks hfirst))
  rw [← List.append_assoc]
  generalize report.conclusion = conclusion at hconcluded
  cases hconcluded with
  | failed | settled =>
    rw [List.append_nil]
    exact ⟨.inl hquiet, fun _ => hquiet⟩
  | requested hwanted henable | overtaken hwanted _ henable | refused hwanted henable =>
    -- The enable classifies once more, so the report's own walk guards nothing.
    refine ⟨(guarded_enable henable).after hquiet, fun honly => ?_⟩
    cases hwanted.symm.trans honly

end Settings

/-- Whatever is answered, an operation writes at most once, last and guarded, and
only if it is one that may. -/
theorem Operation.writes_guarded {settings : Settings} {operation : Operation}
    {trace : List Exchange} {outcome : Outcome}
    (h : (operation.program settings).Yields trace outcome) :
    settings.Guarded trace ∧ (operation.mayWrite = false → Writeless (calls trace)) := by
  cases operation with
  | classify =>
    obtain ⟨result, hclassify, -⟩ := h.of_map
    have hquiet := writeless_of_isLook (Settings.yields_classify_looks hclassify)
    exact ⟨.inl hquiet, fun _ => hquiet⟩
  | enable =>
    obtain ⟨result, henable, -⟩ := h.of_map
    exact ⟨Settings.guarded_enable henable, fun hmay => by cases hmay⟩
  | isCapable =>
    obtain ⟨result, hcapable, -⟩ := h.of_map
    have hquiet := writeless_of_isLook (Settings.yields_isCapable_looks hcapable)
    exact ⟨.inl hquiet, fun _ => hquiet⟩
  | examineProcessor =>
    obtain ⟨support, hexamine, -⟩ := h.of_map
    have hquiet := writeless_of_isLook (Settings.yields_examineProcessor_looks hexamine)
    exact ⟨.inl hquiet, fun _ => hquiet⟩
  | evaluate statusOnly =>
    obtain ⟨report, hevaluate, -⟩ := h.of_map
    obtain ⟨hguarded, hquiet⟩ := Settings.guarded_evaluate hevaluate
    refine ⟨hguarded, fun hmay => hquiet ?_⟩
    cases statusOnly with
    | true => rfl
    | false => cases hmay

/-- A list with one item of a kind splits at items of that kind in one way only. -/
theorem Exchange.split_unique (kind : Exchange → Bool) {first second before after : List Exchange}
    {one other : Exchange} (hfirst : ∀ exchange ∈ first, kind exchange = false)
    (hsecond : ∀ exchange ∈ second, kind exchange = false) (hkind : kind other = true)
    (h : first ++ one :: second = before ++ other :: after) :
    before = first ∧ other = one ∧ after = second := by
  induction first generalizing before with
  | nil =>
    cases before with
    | nil =>
      obtain ⟨rfl, rfl⟩ := List.cons.inj h
      exact ⟨rfl, rfl, rfl⟩
    | cons head tail =>
      obtain ⟨rfl, rfl⟩ := List.cons.inj h
      exact absurd (hsecond other (by simp)) (by simp [hkind])
  | cons exchange rest ih =>
    cases before with
    | nil =>
      obtain ⟨rfl, -⟩ := List.cons.inj h
      exact absurd (hfirst _ List.mem_cons_self) (by simp [hkind])
    | cons head tail =>
      obtain ⟨rfl, htail⟩ := List.cons.inj h
      obtain ⟨rfl, hone, hafter⟩ :=
        ih (fun e member => hfirst e (List.mem_cons_of_mem _ member)) htail
      exact ⟨rfl, hone, hafter⟩

namespace Session

/-- Every write in a session is made by an operation that may write. It is the
last call of its operation and the only write. Right before it, an examination
found an inactive processor, the four probes of a full walk found the request
missing, and a read found a whole offer, from which the bytes are taken. -/
theorem write_protocol (settings : Settings) (machine : Machine κ σ) (steps : List (Step σ))
    (state : Machine.State κ σ) {operation : Operation} {performance : Performance}
    (performed : (Step.perform operation, some performance) ∈
      steps.zip (run settings machine steps state).1)
    {before after : List Exchange} {path : Path} {bytes : Bytes} {written : Except Failure Unit}
    (write : calls performance.trace = before ++ .write path bytes written :: after) :
    operation.mayWrite = true ∧ after = [] ∧ (∀ exchange ∈ before, exchange.isWrite = false) ∧
      path = settings.locations.request ∧
      ∃ earlier examination seen record,
        settings.examineProcessor.Yields examination ⟨true, false⟩ ∧
        (seen = .present ∨ seen = .absent) ∧ 12 ≤ record.length ∧
        before = earlier ++ calls examination ++
          [.probe settings.locations.efiRoot .present, .probe settings.locations.efivarsDir seen,
            .probe settings.locations.offer .present, .probe settings.locations.request .absent,
            .read settings.locations.offer 12 (.ok record)] ∧
        bytes = record.take 4 ++ (record.drop 8).take 4 := by
  obtain ⟨start, rfl⟩ := exists_performed performed
  obtain ⟨trace, hyields, -, hcalls⟩ :=
    (operation.program settings).exists_yields_follows machine start
  obtain ⟨hguarded, hquiet⟩ := Operation.writes_guarded hyields
  have hwrite : calls trace = before ++ .write path bytes written :: after := hcalls.trans write
  have hwritten : ¬ Writeless (calls trace) := fun hnone => by
    cases hnone (.write path bytes written) (by simp [hwrite])
  have hmay : operation.mayWrite = true := by
    cases hmay : operation.mayWrite with
    | true => rfl
    | false => exact absurd (hquiet hmay) hwritten
  rcases hguarded with
    hnone | ⟨earlier, examination, seen, record, taken, hearlier, hexamination, hclear, henough,
      hguard⟩
  · exact absurd hnone hwritten
  · -- One write splits the calls in one way only, so the guarded one is the one at hand.
    have hfirst := hearlier.append
      (Settings.writeless_leadUp seen record hexamination)
    obtain ⟨rfl, heq, rfl⟩ := split_unique isWrite hfirst (by simp) rfl (hguard.symm.trans hwrite)
    cases heq
    refine ⟨hmay, rfl, hfirst, rfl, earlier, examination, seen, record, hexamination, hclear,
      henough, ?_, rfl⟩
    simp [Settings.leadUp, Settings.fullWalk, Settings.approach, Offer.size]

/-- What an enable on the stock platform does. -/
def stockEnable : Performance :=
  (perform Settings.stock Scripted.stockMachine .enable Scripted.stockStart).1

/-- On the stock platform, an enable writes as the protocol has it. -/
theorem write_protocol_stock :
    ∃ before, calls stockEnable.trace =
        before ++ [.write (Locations.request {}) [7, 0, 0, 0, 128, 0, 0, 0] (.ok ())] ∧
      ∃ earlier seen record, (seen = .present ∨ seen = .absent) ∧ 12 ≤ record.length ∧
        before = earlier ++
          [.probe (Locations.efiRoot {}) .present, .probe (Locations.efivarsDir {}) seen,
            .probe (Locations.offer {}) .present, .probe (Locations.request {}) .absent,
            .read (Locations.offer {}) 12 (.ok record)] := by
  let steps : List (Step Scripted.Entries) := [.perform .enable]
  have performed : (Step.perform .enable, some stockEnable) ∈
      steps.zip (run Settings.stock Scripted.stockMachine steps Scripted.stockStart).1 :=
    List.mem_singleton.2 rfl
  have write : calls stockEnable.trace = (calls stockEnable.trace).dropLast ++
      [.write (Locations.request {}) [7, 0, 0, 0, 128, 0, 0, 0] (.ok ())] := by rfl
  obtain ⟨-, -, -, -, earlier, examination, seen, record, -, hclear, henough, hbefore, -⟩ :=
    write_protocol Settings.stock Scripted.stockMachine _ Scripted.stockStart performed write
  exact ⟨_, write, _, seen, record, hclear, henough, hbefore⟩

end Session

end SgxActivation
