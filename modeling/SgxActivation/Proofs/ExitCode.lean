import SgxActivation.Proofs.HonestRuns
import SgxActivation.Proofs.RecordedOnce

/-!
# What the exit code says of the store

On a scripted store without rules on the probes of the firmware's files, whatever rules there
are on reads and writes, a report is determined by what exists, up to the failure of an enable.

* **`Entries.Same`** — two stores answer alike; `follows_same` — along a trace that records
  nothing they do, and every probe tells existence;
* **`Settings.Reported`** — what a report comes to, and what is in the store afterwards;
* `conclude_run_eq` — that an enable is wanted makes no difference where none is possible;
* `Settings.evaluate_truthful` — so the exit code is zero exactly if enclaves are active, or
  the request is in place in the store that the report leaves behind.
-/

namespace SgxActivation

variable {κ σ : Type}

open Exchange Record Scripted

namespace Scripted

/-! ## Stores that answer alike -/

namespace Entries

/-- The same entry at every path. -/
def Same (entries next : Entries) : Prop := ∀ path, next.entry path = entries.entry path

/-- A file at a path, and the same entry at every other. -/
structure Gains (entries next : Entries) (path : Path) : Prop where
  gained : ∃ bytes, next.content? path = some (.file bytes)
  elsewhere : ∀ other ≠ path, next.entry other = entries.entry other

variable {entries next : Entries}

theorem Same.trans {last : Entries} (h : entries.Same next) (h' : next.Same last) :
    entries.Same last := fun path => (h' path).trans (h path)

theorem Same.content? (h : entries.Same next) : next.content? = entries.content? :=
  funext fun path => congrArg Entry.content (h path)

theorem Same.candid (h : entries.Same next) {path : Path} (candid : entries.Candid path) :
    next.Candid path :=
  (congrArg Entry.probes (h path)).trans candid

theorem Same.gains {last : Entries} {path : Path} (h : entries.Same next)
    (h' : next.Gains last path) : entries.Gains last path :=
  ⟨h'.gained, fun other ne => (h'.elsewhere other ne).trans (h other)⟩

theorem Gains.exists_self {path : Path} (h : entries.Gains next path) : next.Exists path := by
  obtain ⟨bytes, hfile⟩ := h.gained
  exact exists_of_content? hfile

/-- What is gained is not lost elsewhere. -/
theorem Gains.exists_of_exists {path other : Path} (h : entries.Gains next path)
    (found : entries.Exists other) : next.Exists other := by
  by_cases hsame : other = path
  · subst hsame
    exact h.exists_self
  · unfold Entries.Exists Entries.content?
    rw [h.elsewhere other hsame]
    exact found

end Entries

variable {settings : Settings} {processor : Processor κ} {before after : Machine.State κ Entries}

/-- Nothing but a recording changes an entry, where no rule on probes can be used up. -/
theorem takes_same {exchange : Exchange}
    (takes : Machine.Takes ⟨processor, store⟩ before exchange after)
    (within : exchange.Within settings.Allows) (recordless : exchange.isRecording = false)
    (candid : ∀ path ∈ settings.paths, before.store.Candid path) :
    before.store.Same after.store := by
  cases exchange with
  | event event =>
    cases takes
    exact fun _ => rfl
  | query leaf subleaf registers =>
    obtain ⟨-, rfl⟩ := takes
    exact fun _ => rfl
  | probe path presence =>
    obtain ⟨-, rfl⟩ := takes
    exact Entries.entry_probe_of_candid (candid path within)
  | read path length result =>
    obtain ⟨-, rfl⟩ := takes
    exact fun _ => rfl
  | write path bytes written =>
    cases written with
    | ok done => cases recordless
    | error failure =>
      obtain ⟨hanswer, rfl⟩ := takes
      intro other
      show (before.store.write path bytes).state.entry other = _
      rw [Entries.write_failed hanswer]

theorem takes_recording {path : Path} {bytes : Bytes}
    (takes : Machine.Takes ⟨processor, store⟩ before (.write path bytes (.ok ())) after) :
    before.store.Gains after.store path := by
  refine ⟨⟨bytes, takes_write takes⟩, fun other hother => ?_⟩
  obtain ⟨hanswer, rfl⟩ := takes
  show (before.store.write path bytes).state.entry other = _
  rw [Entries.write_ok hanswer, Entries.entry_insert, if_neg hother]

/-- Along a trace that records nothing, no entry changes, and every probe tells existence. -/
theorem follows_same {trace : List Exchange}
    (follows : Machine.Follows ⟨processor, store⟩ before trace after)
    (within : ∀ exchange ∈ trace, exchange.Within settings.Allows)
    (recordless : ∀ exchange ∈ trace, exchange.isRecording = false)
    (candid : ∀ path ∈ settings.paths, before.store.Candid path) :
    before.store.Same after.store ∧
      ∀ path presence, .probe path presence ∈ trace →
        presence = View.presence before.store.content? path := by
  induction follows with
  | nil => exact ⟨fun _ => rfl, by simp⟩
  | @cons state exchange next rest last htakes hrest ih =>
    obtain ⟨hwithin, hothers⟩ := List.forall_mem_cons.1 within
    obtain ⟨hfirst, hrecordless⟩ := List.forall_mem_cons.1 recordless
    have hsame := takes_same htakes hwithin hfirst candid
    -- The entries are as they were, so the rest of the trace meets candid probes as well.
    obtain ⟨hlast, hprobes⟩ :=
      ih hothers hrecordless fun path member => hsame.candid (candid path member)
    refine ⟨hsame.trans hlast, fun path presence member => ?_⟩
    rcases List.mem_cons.1 member with rfl | member
    · rw [← htakes.1]
      exact (Entries.probe_answer path).trans (Entries.presence_of_candid (candid path hwithin))
    · rw [hprobes path presence member, hsame.content?]

end Scripted

/-! ## What exists and the status -/

namespace Settings

variable {settings : Settings} {view : View} {support : Support}

theorem exitCode_statusOn :
    (settings.statusOn view support).exitCode = 0 ↔ support.supported = true ∧
      (support.active = true ∨
        (view settings.locations.efiRoot).isSome = true ∧
          (view settings.locations.offer).isSome = true ∧
          (view settings.locations.request).isSome = true) := by
  obtain ⟨supported, active⟩ := support
  unfold statusOn
  cases supported with
  | false => simp [Status.exitCode, Status.isEnabledOrPending]
  | true =>
    cases active with
    | true => simp [Status.exitCode, Status.isEnabledOrPending]
    | false =>
      cases (view settings.locations.efiRoot).isSome <;>
        cases (view settings.locations.offer).isSome <;>
        cases (view settings.locations.request).isSome <;>
        cases (view settings.locations.bootEfi).isSome <;>
        simp [Status.exitCode, Status.isEnabledOrPending]

/-- Where the firmware accepts a request, only the request is wanting. -/
theorem wanting_of_available (h : settings.statusOn view support = .interfaceAvailable) :
    support = ⟨true, false⟩ ∧ (view settings.locations.efiRoot).isSome = true ∧
      (view settings.locations.offer).isSome = true ∧ view settings.locations.request = none := by
  obtain ⟨supported, active⟩ := support
  have hrequest := request_of_available h
  unfold statusOn at h
  cases supported with
  | false => simp at h
  | true =>
    cases active with
    | true => simp at h
    | false =>
      cases hroot : (view settings.locations.efiRoot).isSome with
      | false => cases hboot : (view settings.locations.bootEfi).isSome <;> simp [hroot, hboot] at h
      | true =>
        cases hoffer : (view settings.locations.offer).isSome with
        | false => simp [hroot, hoffer] at h
        | true => exact ⟨rfl, rfl, rfl, hrequest⟩

/-! ## Reports -/

/-- What a report comes to on these entries, and the entries afterwards. -/
inductive Reported (settings : Settings) (support : Support) (before : Entries) :
    (statusOnly : Bool) → Report → Entries → Prop
  | settled {statusOnly after} :
      (settings.statusOn before.content? support = .interfaceAvailable → statusOnly = true) →
      before.Same after →
      Reported settings support before statusOnly
        ⟨support, .settled (settings.statusOn before.content? support)⟩ after
  | requested {after} :
      settings.statusOn before.content? support = .interfaceAvailable →
      before.Gains after settings.locations.request →
      Reported settings support before false ⟨support, .requested⟩ after
  | refused {failure after} :
      settings.statusOn before.content? support = .interfaceAvailable → before.Same after →
      Reported settings support before false
        ⟨support, concludeFailure Failure.enableExplanation failure⟩ after

variable {processor : Processor κ} {state last : Machine.State κ Entries}
  {trace : List Exchange}

/-- What only looks changes no entry, and its probes tell existence. -/
theorem looks_candid {α : Type} {program : Program α} {result : α}
    (asks : program.Asks settings.Allows)
    (candid : ∀ path ∈ settings.paths, state.store.Candid path)
    (yields : program.Yields trace result)
    (follows : Machine.Follows ⟨processor, store⟩ state trace last)
    (looks : ∀ exchange ∈ calls trace, exchange.isLook = true) :
    state.store.Same last.store ∧ ∀ path presence, .probe path presence ∈ calls trace →
      presence = View.presence state.store.content? path := by
  have hwithin : ∀ exchange ∈ calls trace, exchange.Within settings.Allows :=
    fun exchange member => yields.within asks exchange (List.mem_filter.1 member).1
  exact follows_same (Machine.follows_calls.2 follows) hwithin
    (writeless_of_isLook looks).recordless candid

theorem classify_candid (finds : settings.Finds ⟨processor, store⟩ support)
    (candid : ∀ path ∈ settings.paths, state.store.Candid path) {result : Except Failure Status}
    (yields : settings.classify.run.Yields trace result)
    (follows : Machine.Follows ⟨processor, store⟩ state trace last) :
    result = .ok (settings.statusOn state.store.content? support) ∧
      state.store.Same last.store := by
  obtain ⟨hsame, hprobes⟩ :=
    looks_candid asks_classify candid yields follows (yields_classify_looks yields)
  obtain ⟨examination, walk, -, rfl, hclassified⟩ := finds.classified yields follows
  refine ⟨hclassified.statusOn fun path presence member => ?_, hsame⟩
  exact hprobes path presence (by simp [member])

/-- Taking up an offer fails and changes nothing, or adds the request. -/
theorem TakingUp.candid {taken : List Exchange} {result : Except Failure Unit}
    (h : TakingUp settings taken result)
    (candid : ∀ path ∈ settings.paths, state.store.Candid path)
    (follows : Machine.Follows ⟨processor, store⟩ state taken last) :
    (∃ failure, result = .error failure ∧ state.store.Same last.store) ∨
      result = .ok () ∧ state.store.Gains last.store settings.locations.request := by
  cases h with
  | unread | short =>
    exact .inl ⟨_, rfl, takes_same (Machine.follows_singleton.1 follows) ⟨rfl, rfl⟩ rfl candid⟩
  | written =>
    obtain ⟨next, hread, hwrite⟩ := Machine.follows_cons.1 follows
    have hwritten := Machine.follows_singleton.1 hwrite
    have hsame := takes_same hread ⟨rfl, rfl⟩ rfl candid
    cases result with
    | error failure =>
      have hfailed := takes_same hwritten rfl rfl fun path member =>
        hsame.candid (candid path member)
      exact .inl ⟨failure, rfl, hsame.trans hfailed⟩
    | ok done => exact .inr ⟨rfl, hsame.gains (takes_recording hwritten)⟩

/-- Where the firmware accepts a request, an enable fails and changes nothing, or adds it. -/
theorem enable_candid (finds : settings.Finds ⟨processor, store⟩ support)
    (candid : ∀ path ∈ settings.paths, state.store.Candid path)
    (available : settings.statusOn state.store.content? support = .interfaceAvailable)
    {result : Except Failure Status} (yields : settings.enable.run.Yields trace result)
    (follows : Machine.Follows ⟨processor, store⟩ state trace last) :
    (∃ failure, result = .error failure ∧ state.store.Same last.store) ∨
      result = .ok .rebootRequired ∧
        state.store.Gains last.store settings.locations.request := by
  obtain ⟨first, classified, rest, hfirst, rfl, henabling⟩ := yields_enable yields
  obtain ⟨middle, hclassifying, hfollowing⟩ := Machine.follows_append.1 follows
  obtain ⟨rfl, hsame⟩ := classify_candid finds candid hfirst hclassifying
  rw [available] at henabling
  rw [← Machine.follows_calls] at hfollowing
  generalize calls rest = taken at henabling hfollowing
  cases henabling with
  | settled hother => exact absurd rfl hother
  | attempted htaking =>
    rcases htaking.candid (fun path member => hsame.candid (candid path member)) hfollowing with
      ⟨failure, rfl, hlast⟩ | ⟨rfl, hgains⟩
    · exact .inl ⟨failure, rfl, hsame.trans hlast⟩
    · exact .inr ⟨rfl, hsame.gains hgains⟩

theorem evaluate_candid (finds : settings.Finds ⟨processor, store⟩ support)
    (candid : ∀ path ∈ settings.paths, state.store.Candid path) {statusOnly : Bool}
    {report : Report} (yields : (settings.evaluate statusOnly).Yields trace report)
    (follows : Machine.Follows ⟨processor, store⟩ state trace last) :
    settings.Reported support state.store statusOnly report last.store := by
  obtain ⟨found, conclusion⟩ := report
  obtain ⟨examination, first, classified, rest, hexamination, hfirst, rfl, hconcluded⟩ :=
    yields_evaluate yields
  obtain ⟨examined, hexamining, hfollowing⟩ := Machine.follows_append.1 follows
  obtain ⟨middle, hclassifying, hfollowing⟩ := Machine.follows_append.1 hfollowing
  obtain rfl : found = support := finds _ _ _ _ hexamination hexamining
  have hexamined := (looks_candid asks_examineProcessor candid hexamination hexamining
    (yields_examineProcessor_looks hexamination)).1
  obtain ⟨rfl, hclassified⟩ := classify_candid finds
    (fun path member => hexamined.candid (candid path member)) hfirst hclassifying
  have hsame := hexamined.trans hclassified
  rw [hexamined.content?] at hconcluded
  generalize hstatus : settings.statusOn state.store.content? found = status at hconcluded
  -- The enable finds what the classification found.
  have enabling {result : Except Failure Status} (available : status = .interfaceAvailable)
      (henable : settings.enable.run.Yields rest result) :=
    enable_candid finds (fun path member => hsame.candid (candid path member))
      (hsame.content? ▸ hstatus.trans available) henable hfollowing
  cases hconcluded with
  | settled honly =>
    cases Machine.follows_nil.1 hfollowing
    subst hstatus
    exact .settled honly hsame
  | requested hwanted henable =>
    subst hwanted
    rcases enabling rfl henable with ⟨failure, hfailed, -⟩ | ⟨-, hgains⟩
    · cases hfailed
    · exact .requested hstatus (hsame.gains hgains)
  | overtaken hwanted hother henable =>
    rcases enabling rfl henable with ⟨failure, hfailed, -⟩ | ⟨hreboot, -⟩
    · cases hfailed
    · exact absurd (Except.ok.inj hreboot) hother
  | refused hwanted henable =>
    subst hwanted
    rcases enabling rfl henable with ⟨failure, -, hlast⟩ | ⟨hreboot, -⟩
    · exact .refused hstatus (hsame.trans hlast)
    · cases hreboot

/-- The exit code is zero exactly if enclaves are active, or everything that the firmware
needs is there afterwards. -/
theorem Reported.exitCode_iff {before after : Entries} {statusOnly : Bool} {report : Report}
    (h : settings.Reported support before statusOnly report after) :
    report.exitCode = 0 ↔ support.supported = true ∧
      (support.active = true ∨
        after.Exists settings.locations.efiRoot ∧ after.Exists settings.locations.offer ∧
          after.Exists settings.locations.request) := by
  cases h with
  | settled _ hsame =>
    unfold Entries.Exists
    rw [hsame.content?]
    exact exitCode_statusOn
  | requested havailable hgains =>
    obtain ⟨rfl, hroot, hoffer, -⟩ := wanting_of_available havailable
    exact iff_of_true rfl ⟨rfl, .inr ⟨hgains.exists_of_exists hroot,
      hgains.exists_of_exists hoffer, hgains.exists_self⟩⟩
  | refused havailable hsame =>
    obtain ⟨rfl, -, -, hrequest⟩ := wanting_of_available havailable
    unfold Entries.Exists
    rw [hsame.content?, hrequest]
    simp [concludeFailure, Report.exitCode, Report.status?]

theorem Reported.available {before after : Entries} {statusOnly : Bool} {report : Report}
    (h : settings.Reported support before statusOnly report after)
    (found : report.status? = some .interfaceAvailable) :
    settings.statusOn before.content? support = .interfaceAvailable := by
  cases h with
  | settled => exact Option.some.inj found
  | requested havailable | refused havailable => exact havailable

/-! ## Whether an enable is wanted -/

/-- Where no offer is open, a conclusion is the same whether an enable is wanted or not. -/
theorem conclude_run_eq {machine : Machine κ σ} {state : Machine.State κ σ}
    (h : ((settings.conclude true).run machine state).result ≠ .settled .interfaceAvailable) :
    (settings.conclude false).run machine state = (settings.conclude true).run machine state := by
  simp only [conclude, Program.bind_eq, Program.run_andThen] at h ⊢
  generalize settings.classify.run.run machine state = classified at h ⊢
  obtain ⟨result, trace, final⟩ := classified
  cases result with
  | error failure => rfl
  | ok status =>
    cases status with
    | interfaceAvailable => exact absurd rfl h
    | _ => rfl

theorem evaluate_run_eq {machine : Machine κ σ} {state : Machine.State κ σ}
    (h : ((settings.evaluate true).run machine state).result.status? ≠ some .interfaceAvailable) :
    (settings.evaluate false).run machine state = (settings.evaluate true).run machine state := by
  simp only [evaluate, Program.bind_eq, Program.run_andThen] at h ⊢
  rw [conclude_run_eq]
  intro hopen
  rw [hopen] at h
  exact h rfl

/-- On a fixed processor and a store whose probes are honest, the exit code of a report tells
the truth about the store that it leaves behind: it is zero exactly if the processor is
supported and enclaves are active, or the firmware directory, the offer and the request are all
there. A report that wants an enable differs from one that only wants the status just where an
offer is open. There the request is recorded, and the report says so and nothing else; or the
enable fails, and no entry of the store has changed. -/
theorem evaluate_truthful (settings : Settings) (processor : Processor κ)
    (fixed : processor.Fixed) (state : Machine.State κ Entries)
    (candid : ∀ path ∈ settings.paths, state.store.Candid path) :
    let machine : Machine κ Entries := ⟨processor, store⟩
    let support := (settings.examineProcessor.run machine state).result
    let evaluated := fun statusOnly => (settings.evaluate statusOnly).run machine state
    (∀ statusOnly, (evaluated statusOnly).result.exitCode = 0 ↔ support.supported = true ∧
      (support.active = true ∨
        (evaluated statusOnly).final.store.Exists settings.locations.efiRoot ∧
        (evaluated statusOnly).final.store.Exists settings.locations.offer ∧
        (evaluated statusOnly).final.store.Exists settings.locations.request)) ∧
    ((evaluated true).result.status? ≠ some .interfaceAvailable →
      evaluated false = evaluated true) ∧
    ((evaluated true).result.status? = some .interfaceAvailable →
      (evaluated false).result = ⟨support, .requested⟩ ∧
          ¬ state.store.Exists settings.locations.request ∧
          state.store.Gains (evaluated false).final.store settings.locations.request ∨
        ∃ failure, (evaluated false).result =
            ⟨support, concludeFailure Failure.enableExplanation failure⟩ ∧
          state.store.Same (evaluated false).final.store) := by
  intro machine support evaluated
  have hreported (statusOnly : Bool) : settings.Reported support state.store statusOnly
      (evaluated statusOnly).result (evaluated statusOnly).final.store := by
    obtain ⟨trace, hyields, hfollows, -⟩ :=
      (settings.evaluate statusOnly).exists_yields_follows machine state
    exact evaluate_candid (finds_of_fixed fixed state) candid hyields hfollows
  refine ⟨fun statusOnly => (hreported statusOnly).exitCode_iff, evaluate_run_eq, fun hopen => ?_⟩
  have havailable := (hreported true).available hopen
  have hacted := hreported false
  generalize (evaluated false).result = report at hacted ⊢
  generalize (evaluated false).final.store = after at hacted ⊢
  cases hacted with
  | settled honly => cases honly havailable
  | requested _ hgains =>
    obtain ⟨-, -, -, hrequest⟩ := wanting_of_available havailable
    exact .inl ⟨rfl, by simp [Entries.Exists, hrequest], hgains⟩
  | refused _ hsame => exact .inr ⟨_, rfl, hsame⟩

/-- The stock platform, except that the request may not be written. -/
def barred : Machine.State Nat Entries :=
  ⟨0, (offering {}).insert (Locations.request {})
    { writeRule := some ⟨.noPrivilege, "cannot write"⟩ }⟩

/-- There an enable is possible and fails, the exit code says so, and no request is there. -/
theorem evaluate_truthful_barred :
    let evaluated := fun statusOnly => (Settings.stock.evaluate statusOnly).run stockMachine barred
    (evaluated true).result.status? = some .interfaceAvailable ∧
      (evaluated false).result.exitCode = 1 ∧
      ¬ (evaluated false).final.store.Exists (Locations.request {}) := by
  intro evaluated
  have candid : ∀ path ∈ Settings.stock.paths, (barred.store.entry path).probes = [] := by
    decide +kernel
  have hstatus : (evaluated true).result.status? = some .interfaceAvailable := by decide +kernel
  have hexit : (evaluated false).result.exitCode = 1 := by decide +kernel
  obtain ⟨-, -, hacted⟩ :=
    evaluate_truthful Settings.stock dormant.processor (fun _ _ _ _ => rfl) barred candid
  refine ⟨hstatus, hexit, fun hrequest => ?_⟩
  rcases hacted hstatus with ⟨hrequested, -⟩ | ⟨failure, -, hsame⟩
  · have hzero := congrArg Report.exitCode hrequested
    cases hexit.symm.trans hzero
  · have hnone : (evaluated false).final.store.content? (Locations.request {}) = none :=
      congrFun hsame.content? _
    unfold Entries.Exists at hrequest
    rw [hnone] at hrequest
    cases hrequest

end Settings

end SgxActivation
