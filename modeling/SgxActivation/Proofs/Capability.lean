import Mathlib.Control.Monad.Basic
import SgxActivation.Proofs.Enabling
import SgxActivation.Proofs.ScriptedStore

/-!
# Capability and classification

A capability query takes a shorter way than a classification: it looks at the offer alone,
and neither at the boot nor at the request. Where they are asked about one and the same
platform, they can be held against each other.

* **`Store.Steady`** — the outcome of a probe depends on its path alone; all probes of a
  trace that only looks then have it (`Store.Steady.probe_eq`);
* **`Agreement`** — what the two results have to do with each other: the ones they share, the
  failures they share, and the one way in which they differ;
* `Settings.isCapable_agrees` — the results on a fixed processor and a steady store agree.
-/

namespace SgxActivation

variable {κ σ : Type}

open Exchange

/-! ## Steady stores -/

/-- From a state on, the outcome of each probe depends on its path only, however often one
probes. -/
def Store.Steady (store : Store σ) (outcome : Path → Presence) (state : σ) : Prop :=
  ∃ keeps : σ → Prop, keeps state ∧ ∀ before, keeps before → ∀ path,
    (store.probe path before).answer = outcome path ∧ keeps (store.probe path before).state

/-- The probes of a trace that only looks have the outcomes of a steady store. -/
theorem Store.Steady.probe_eq {machine : Machine κ σ} {outcome : Path → Presence}
    {state last : Machine.State κ σ} {trace : List Exchange}
    (steady : machine.store.Steady outcome state.store)
    (follows : machine.Follows state trace last)
    (looks : ∀ exchange ∈ calls trace, exchange.isLook = true) {path : Path}
    {presence : Presence} (member : .probe path presence ∈ calls trace) :
    presence = outcome path := by
  obtain ⟨keeps, hkeeps, hstep⟩ := steady
  obtain ⟨first, second, hsplit⟩ := List.append_of_mem member
  rw [← Machine.follows_calls, hsplit, Machine.follows_append] at follows
  obtain ⟨middle, hfirst, hsecond⟩ := follows
  have hmiddle : keeps middle.store := by
    refine hfirst.preserves (fun before => keeps before.store) ?_ hkeeps
    intro exchange hexchange before after htakes hbefore
    have hlook := looks exchange (hsplit ▸ List.mem_append_left _ hexchange)
    cases exchange with
    | query leaf subleaf registers =>
      obtain ⟨-, rfl⟩ := htakes
      exact hbefore
    | probe path presence =>
      obtain ⟨-, rfl⟩ := htakes
      exact (hstep before.store hbefore path).2
    | read | write => cases hlook
    | event event =>
      cases htakes
      exact hbefore
  obtain ⟨next, htakes, -⟩ := Machine.follows_cons.1 hsecond
  exact htakes.1.symm.trans (hstep middle.store hmiddle path).1

namespace Settings

/-! ## Agreement -/

/-- What a classification and a capability query of one platform have to do with each other,
whose probes have these outcomes. -/
structure Agreement (settings : Settings) (outcome : Path → Presence)
    (classified : Except Failure Status) (capable : Except Failure Bool) : Prop where
  /-- Enclaves that work, or that the firmware can be asked for, make a platform capable. -/
  promising : classified = .ok .enabled ∨ classified = .ok .rebootRequired ∨
    classified = .ok .interfaceAvailable → capable = .ok true
  hopeless : classified = .ok .unsupportedProcessor ∨ classified = .ok .manualEnableRequired →
    capable = .ok false
  /-- A query fails only where the classification does too, or looks elsewhere. -/
  failing : ∀ failure, capable = .error failure → classified = .ok .disabled ∨
    classified = .ok .legacyBoot ∨ ∃ other, classified = .error other
  /-- It is the same failure if nothing else is in the way of the classification. -/
  same : ∀ failure, capable = .error failure → outcome settings.locations.efiRoot = .present →
    outcome settings.locations.efivarsDir = .present ∨
      outcome settings.locations.efivarsDir = .absent →
    classified = .error failure
  /-- The query alone sees an offer only where this was no boot through the firmware. -/
  differing : capable = .ok true → ∀ status, classified = .ok status → status ≠ .enabled →
    status ≠ .rebootRequired → status ≠ .interfaceAvailable →
    (status = .disabled ∨ status = .legacyBoot) ∧ outcome settings.locations.efiRoot = .absent

namespace Agreement

variable {settings : Settings} {outcome : Path → Presence} {status : Status}
  {capable : Except Failure Bool}

theorem of_capable
    (h : status = .enabled ∨ status = .rebootRequired ∨ status = .interfaceAvailable) :
    Agreement settings outcome (.ok status) (.ok true) where
  promising _ := rfl
  hopeless hstatus := by rcases h with rfl | rfl | rfl <;> simp at hstatus
  failing _ hfailed := by cases hfailed
  same _ hfailed := by cases hfailed
  differing _ other hsame henabled hreboot havailable := by
    cases hsame
    rcases h with rfl | rfl | rfl
    · exact absurd rfl henabled
    · exact absurd rfl hreboot
    · exact absurd rfl havailable

theorem of_incapable (h : status = .unsupportedProcessor ∨ status = .manualEnableRequired) :
    Agreement settings outcome (.ok status) (.ok false) where
  promising hstatus := by rcases h with rfl | rfl <;> simp at hstatus
  hopeless _ := rfl
  failing _ hfailed := by cases hfailed
  same _ hfailed := by cases hfailed
  differing hcapable := by cases hcapable

/-- Without a boot through the firmware there may or may not be an offer. -/
theorem of_otherBoot (h : status = .disabled ∨ status = .legacyBoot)
    (root : outcome settings.locations.efiRoot = .absent) :
    Agreement settings outcome (.ok status) capable where
  promising hstatus := by rcases h with rfl | rfl <;> simp at hstatus
  hopeless hstatus := by rcases h with rfl | rfl <;> simp at hstatus
  failing _ _ := by rcases h with rfl | rfl <;> simp
  same _ _ hroot := by cases root.symm.trans hroot
  differing _ other hsame _ _ _ := by
    cases hsame
    exact ⟨h, root⟩

theorem of_failed {failure : Failure}
    (same : ∀ other, capable = .error other → outcome settings.locations.efiRoot = .present →
      (outcome settings.locations.efivarsDir).IsClear → failure = other) :
    Agreement settings outcome (.error failure) capable where
  promising hstatus := by simp at hstatus
  hopeless hstatus := by simp at hstatus
  failing _ _ := .inr (.inr ⟨failure, rfl⟩)
  same other hfailed hroot hdirectory := congrArg _ (same other hfailed hroot hdirectory)
  differing _ _ hstatus := by cases hstatus

end Agreement

variable {settings : Settings} {outcome : Path → Presence}

/-- A walk agrees with a look at the offer, where both see the same. -/
theorem Walk.agreement {walk : List Exchange} {classified : Except Failure Status}
    (h : Walk settings walk classified)
    (probed : ∀ path presence, .probe path presence ∈ walk → presence = outcome path) :
    Agreement settings outcome classified
      (judge settings.locations.offer (variableRefusal settings.locations.offer)
        (outcome settings.locations.offer)) := by
  cases h with
  | rootBlocked hblocked =>
    have hroot := probed _ _ List.mem_cons_self
    refine .of_failed fun _ _ hpresent => ?_
    exact absurd (.inl (hroot.trans hpresent)) (not_isClear_of_judge hblocked)
  | legacy presence =>
    refine .of_otherBoot ?_ (probed _ _ List.mem_cons_self).symm
    split
    · exact .inr rfl
    · exact .inl rfl
  | @directoryBlocked presence _ hblocked =>
    have hdirectory := probed settings.locations.efivarsDir presence (by simp [approach])
    refine .of_failed fun _ _ _ hclear => ?_
    exact absurd (hdirectory ▸ hclear) (not_isClear_of_judge hblocked)
  | @offerBlocked _ presence _ hclear hblocked =>
    -- The same refused or failed probe ends both.
    rw [← probed settings.locations.offer presence (by simp), hblocked]
    exact .of_failed fun _ hsame _ _ => Except.error.inj hsame
  | offerMissing hclear =>
    rw [← probed settings.locations.offer .absent (by simp)]
    exact .of_incapable (.inr rfl)
  | requestBlocked hclear hblocked =>
    rw [← probed settings.locations.offer .present (by simp [fullWalk])]
    refine .of_failed fun _ hfailed => ?_
    cases hfailed
  | requestMissing hclear =>
    rw [← probed settings.locations.offer .present (by simp [fullWalk])]
    exact .of_capable (.inr (.inr rfl))
  | requestFound hclear =>
    rw [← probed settings.locations.offer .present (by simp [fullWalk])]
    exact .of_capable (.inr (.inl rfl))

/-- What follows from one and the same support agrees. -/
theorem Classified.agreement {support : Support} {walk looked : List Exchange}
    {classified : Except Failure Status} {capable : Except Failure Bool}
    (h : Classified settings support walk classified)
    (hcapable : Capability settings support looked capable)
    (walked : ∀ path presence, .probe path presence ∈ walk → presence = outcome path)
    (probed : ∀ path presence, .probe path presence ∈ looked → presence = outcome path) :
    Agreement settings outcome classified capable := by
  cases hcapable with
  | unsupported hsupported =>
    cases h with
    | unsupported => exact .of_incapable (.inl rfl)
    | enabled hother => cases hsupported.symm.trans hother
    | walked => cases hsupported
  | active hsupported hactive =>
    cases h with
    | unsupported hother => cases hother.symm.trans hsupported
    | enabled => exact .of_capable (.inl rfl)
    | walked => cases hactive
  | looked presence =>
    obtain rfl := probed _ _ List.mem_cons_self
    cases h with
    | unsupported hother => cases hother
    | enabled _ hother => cases hother
    | walked hwalk => exact hwalk.agreement walked

/-- A classification and a capability query agree, in whatever states they find a processor
that is fixed and a store that is steady. -/
theorem isCapable_agrees (settings : Settings) (machine : Machine κ σ)
    (outcome : Path → Presence) (fixed : machine.processor.Fixed)
    (state other : Machine.State κ σ) (steady : machine.store.Steady outcome state.store)
    (steady' : machine.store.Steady outcome other.store) :
    Agreement settings outcome (settings.classify.run.run machine state).result
      (settings.isCapable.run.run machine other).result := by
  obtain ⟨trace, hyields, hfollows, -⟩ :=
    settings.classify.run.exists_yields_follows machine state
  obtain ⟨trace', hyields', hfollows', -⟩ :=
    settings.isCapable.run.exists_yields_follows machine other
  have hprobed (path : Path) (presence : Presence) (member : .probe path presence ∈ calls trace) :
      presence = outcome path :=
    steady.probe_eq hfollows (yields_classify_looks hyields) member
  have hprobed' (path : Path) (presence : Presence)
      (member : .probe path presence ∈ calls trace') : presence = outcome path :=
    steady'.probe_eq hfollows' (yields_isCapable_looks hyields') member
  -- Both examine a fixed processor, which shows them the same.
  obtain ⟨examination, support, looked, hexamine, rfl, hcapability⟩ := yields_isCapable hyields'
  obtain ⟨middle, hexamined, -⟩ := Machine.follows_append.1 hfollows'
  obtain rfl := finds_of_fixed fixed state _ _ _ _ hexamine hexamined
  obtain ⟨examination', walk, -, rfl, hclassified⟩ :=
    (finds_of_fixed fixed state).classified hyields hfollows
  rw [calls_append] at hprobed hprobed'
  exact hclassified.agreement hcapability
    (fun path presence member => hprobed path presence (List.mem_append_right _ member))
    (fun path presence member => hprobed' path presence (List.mem_append_right _ member))

end Settings

/-! ## A guarded offer -/

namespace Scripted

/-- A store that has one outcome for each path is steady. -/
theorem Entries.steady {entries : Entries}
    (single : ∀ path, (entries.entry path).probes.length ≤ 1) :
    store.Steady (fun path => (entries.entry path).presence) entries := by
  refine ⟨fun later => ∀ path, later.entry path = entries.entry path, fun _ => rfl,
    fun before same path => ⟨?_, fun other => ?_⟩⟩
  · show (before.probe path).answer = _
    rw [probe_answer, same]
  · show (before.probe path).state.entry other = _
    rw [entry_probe, same path]
    split
    · rename_i hother
      rw [hother]
      exact probed_of_single (single path)
    · exact same other

/-- A boot through the firmware without a variable directory, where one may not look for an
offer. -/
def guarded (locations : Locations) : Entries :=
  Table.ofList
    [(locations.efiRoot, { content := some .directory }),
      (locations.offer, { probes := [.denied] })]

theorem guarded_single (locations : Locations) (path : Path) :
    ((guarded locations).entry path).probes.length ≤ 1 := by
  simp only [guarded, Table.ofList, List.foldl_cons, List.foldl_nil, Entries.entry_insert]
  split
  · exact Nat.le_refl 1
  · split <;> exact Nat.zero_le 1

end Scripted

/-- There, a capability query fails, and so the classification fails in the same way. -/
theorem Settings.isCapable_agrees_guarded :
    let state : Machine.State Nat Scripted.Entries := ⟨0, Scripted.guarded {}⟩
    let refused : Failure :=
      ⟨.noPrivilege, variableRefusal stock.locations.offer⟩
    (stock.isCapable.run.run Scripted.stockMachine state).result = .error refused ∧
      (stock.classify.run.run Scripted.stockMachine state).result = .error refused := by
  intro state refused
  have fixed : Scripted.stockMachine.processor.Fixed := fun _ _ _ _ => rfl
  have steady := Scripted.Entries.steady (Scripted.guarded_single {})
  have hagreement := isCapable_agrees stock Scripted.stockMachine _ fixed state state steady steady
  have hcapable : (stock.isCapable.run.run Scripted.stockMachine state).result =
      .error refused := by decide +kernel
  exact ⟨hcapable, hagreement.same refused hcapable (by decide +kernel) (by decide +kernel)⟩

end SgxActivation
