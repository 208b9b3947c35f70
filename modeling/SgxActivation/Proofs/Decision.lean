import Mathlib.Control.Monad.Basic
import SgxActivation.Proofs.Classification
import SgxActivation.Proofs.ScriptedStore

/-!
# The decision procedure

Where a platform stands, as a procedure of **stages**. Each stage probes one path,
and its **verdict** on the outcome names the next stage, settles the status or fails.

* **`Stage.verdict`** — the whole procedure, as a table;
* **`Settings.decision`** — the procedure followed on a store, with the probes that it
  makes: none for a processor without enclaves, or with active ones;
* `Walk.reads` — the walk of a classification is the procedure, told by its probes;
* `Settings.classify_eq_decision` — a classification is an examination of the processor
  followed by this procedure, on every processor and every store.
-/

namespace SgxActivation

variable {κ σ : Type}

open Exchange

/-- A place of the procedure. -/
inductive Stage where
  /-- Was this a boot through the firmware? -/
  | root
  /-- It was not. Is there a system partition? -/
  | partition
  /-- It was. Are there variables? -/
  | directory
  /-- Does the firmware make an offer? -/
  | offer
  /-- Was the offer taken up? -/
  | request
  deriving DecidableEq, Repr

/-- What is made of the outcome of a probe. -/
inductive Verdict where
  | goOn (next : Stage)
  | settled (status : Status)
  | blocked (failure : Failure)
  deriving DecidableEq, Repr

namespace Stage

/-- The path that a stage probes. -/
def path (locations : Locations) : Stage → Path
  | .root => locations.efiRoot
  | .partition => locations.bootEfi
  | .directory => locations.efivarsDir
  | .offer => locations.offer
  | .request => locations.request

/-- What is said when the probe of a stage is refused. -/
def refusal (locations : Locations) : Stage → String
  | .root => s!"no privilege to examine boot environment: {locations.efiRoot.text}"
  | stage => s!"Permission denied: {(stage.path locations).text}"

/-- The verdict of a stage. The stage of the partition takes a refused or failed probe
for a presence, and a missing variable directory makes no difference. Any other refused
or failed probe is a failure that names the path. -/
def verdict (locations : Locations) : Stage → Presence → Verdict
  | .root, .present => .goOn .directory
  | .root, .absent => .goOn .partition
  | .partition, .absent => .settled .legacyBoot
  | .partition, _ => .settled .disabled
  | .directory, .present | .directory, .absent => .goOn .offer
  | .offer, .present => .goOn .request
  | .offer, .absent => .settled .manualEnableRequired
  | .request, .present => .settled .rebootRequired
  | .request, .absent => .settled .interfaceAvailable
  | stage, .denied => .blocked ⟨.noPrivilege, stage.refusal locations⟩
  | stage, .failed reason =>
    .blocked ⟨.unexpected, s!"{(stage.path locations).text}: {reason}"⟩

/-- How many stages may follow. -/
def height : Stage → Nat
  | .root => 3
  | .directory => 2
  | .offer => 1
  | .request | .partition => 0

/-- The procedure goes on to fewer and fewer stages. -/
theorem height_lt {locations : Locations} {stage next : Stage} {presence : Presence}
    (h : stage.verdict locations presence = .goOn next) : next.height < stage.height := by
  cases stage <;> cases presence <;> cases h <;> decide

/-- Follows the procedure on a store from a stage on: the status or failure that it comes
to, the probes on the way with their outcomes, and the store afterwards. -/
def walk (locations : Locations) (store : Store σ) (stage : Stage) (files : σ) :
    Execution (Except Failure Status) σ :=
  let path := stage.path locations
  let reply := store.probe path files
  match _ : stage.verdict locations reply.answer with
  | .settled status => ⟨.ok status, [.probe path reply.answer], reply.state⟩
  | .blocked failure => ⟨.error failure, [.probe path reply.answer], reply.state⟩
  | .goOn next =>
    let rest := next.walk locations store reply.state
    ⟨rest.result, .probe path reply.answer :: rest.trace, rest.final⟩
termination_by stage.height
decreasing_by exact height_lt ‹_›

section

variable {locations : Locations} {store : Store σ} {stage : Stage} {files : σ}

theorem walk_settled {status : Status}
    (h : stage.verdict locations (store.probe (stage.path locations) files).answer =
      .settled status) :
    let reply := store.probe (stage.path locations) files
    stage.walk locations store files =
      ⟨.ok status, [.probe (stage.path locations) reply.answer], reply.state⟩ := by
  rw [walk]
  split <;> simp_all

theorem walk_blocked {failure : Failure}
    (h : stage.verdict locations (store.probe (stage.path locations) files).answer =
      .blocked failure) :
    let reply := store.probe (stage.path locations) files
    stage.walk locations store files =
      ⟨.error failure, [.probe (stage.path locations) reply.answer], reply.state⟩ := by
  rw [walk]
  split <;> simp_all

theorem walk_goOn {next : Stage}
    (h : stage.verdict locations (store.probe (stage.path locations) files).answer =
      .goOn next) :
    let reply := store.probe (stage.path locations) files
    let rest := next.walk locations store reply.state
    stage.walk locations store files =
      ⟨rest.result, .probe (stage.path locations) reply.answer :: rest.trace, rest.final⟩ := by
  rw [walk]
  split <;> simp_all

end

/-- The procedure from a stage on, told by its probes alone: each but the last one was
answered so that the procedure went on. -/
inductive Reads (locations : Locations) : Stage → List Exchange → Except Failure Status → Prop
  | settled (stage) {presence status} : stage.verdict locations presence = .settled status →
      Reads locations stage [.probe (stage.path locations) presence] (.ok status)
  | blocked (stage) {presence failure} : stage.verdict locations presence = .blocked failure →
      Reads locations stage [.probe (stage.path locations) presence] (.error failure)
  | goOn (stage) {presence next rest result} : stage.verdict locations presence = .goOn next →
      Reads locations next rest result →
      Reads locations stage (.probe (stage.path locations) presence :: rest) result

variable {locations : Locations} {stage : Stage} {trace : List Exchange}
  {result : Except Failure Status}

/-- Probes that a machine answers are those of the procedure on its store. -/
theorem Reads.walk_eq {machine : Machine κ σ} {state last : Machine.State κ σ}
    (h : Reads locations stage trace result) (follows : machine.Follows state trace last) :
    stage.walk locations machine.store state.store = ⟨result, trace, last.store⟩ ∧
      last.processor = state.processor := by
  induction h generalizing state with
  | settled stage hverdict =>
    obtain ⟨rfl, rfl⟩ := Machine.follows_singleton.1 follows
    exact ⟨walk_settled hverdict, rfl⟩
  | blocked stage hverdict =>
    obtain ⟨rfl, rfl⟩ := Machine.follows_singleton.1 follows
    exact ⟨walk_blocked hverdict, rfl⟩
  | @goOn stage presence next rest result hverdict _ ih =>
    obtain ⟨after, ⟨rfl, rfl⟩, hrest⟩ := Machine.follows_cons.1 follows
    obtain ⟨hwalk, hprocessor⟩ := ih hrest
    have hnext : next.walk locations machine.store
        (machine.store.probe (stage.path locations) state.store).state =
          ⟨result, rest, last.store⟩ := hwalk
    refine ⟨(walk_goOn hverdict).trans ?_, hprocessor⟩
    rw [hnext]
    rfl

end Stage

namespace Settings

variable {settings : Settings}

theorem verdict_of_judge {stage : Stage} {presence : Presence} {failure : Failure}
    (h : judge (stage.path settings.locations) (stage.refusal settings.locations) presence =
      .error failure) (other : stage ≠ .partition) :
    stage.verdict settings.locations presence = .blocked failure := by
  cases presence with
  | present | absent => cases h
  | denied =>
    cases h
    cases stage with
    | partition => exact absurd rfl other
    | root | directory | offer | request => rfl
  | failed reason =>
    cases h
    cases stage with
    | partition => exact absurd rfl other
    | root | directory | offer | request => rfl

theorem verdict_of_isClear {seen : Presence} (clear : seen.IsClear) :
    Stage.directory.verdict settings.locations seen = .goOn .offer := by
  rcases clear with rfl | rfl <;> rfl

/-- The walk of a classification is the procedure from its root on. -/
theorem Walk.reads {walk : List Exchange} {result : Except Failure Status}
    (h : Walk settings walk result) : Stage.Reads settings.locations .root walk result := by
  cases h with
  | rootBlocked hblocked => exact .blocked .root (verdict_of_judge hblocked (by decide))
  | legacy presence =>
    refine .goOn .root rfl ?_
    cases presence with
    | absent => exact .settled .partition rfl
    | present | denied | failed => exact .settled .partition rfl
  | directoryBlocked hblocked =>
    exact .goOn .root rfl
      (.blocked .directory (verdict_of_judge hblocked (by decide)))
  | offerBlocked hclear hblocked =>
    exact .goOn .root rfl (.goOn .directory (verdict_of_isClear hclear)
      (.blocked .offer (verdict_of_judge hblocked (by decide))))
  | offerMissing hclear =>
    exact .goOn .root rfl (.goOn .directory (verdict_of_isClear hclear)
      (.settled .offer rfl))
  | requestBlocked hclear hblocked =>
    exact .goOn .root rfl (.goOn .directory (verdict_of_isClear hclear)
      (.goOn .offer rfl
        (.blocked .request (verdict_of_judge hblocked (by decide)))))
  | requestMissing hclear =>
    exact .goOn .root rfl (.goOn .directory (verdict_of_isClear hclear)
      (.goOn .offer rfl (.settled .request rfl)))
  | requestFound hclear =>
    exact .goOn .root rfl (.goOn .directory (verdict_of_isClear hclear)
      (.goOn .offer rfl (.settled .request rfl)))

/-- The procedure behind an examination of the processor, followed on a store. -/
def decision (settings : Settings) (store : Store σ) (support : Support) (files : σ) :
    Execution (Except Failure Status) σ :=
  if !support.supported then ⟨.ok .unsupportedProcessor, [], files⟩
  else if support.active then ⟨.ok .enabled, [], files⟩
  else Stage.root.walk settings.locations store files

theorem Classified.decision_eq {support : Support} {walk : List Exchange}
    {result : Except Failure Status} {machine : Machine κ σ} {state last : Machine.State κ σ}
    (h : Classified settings support walk result) (follows : machine.Follows state walk last) :
    settings.decision machine.store support state.store = ⟨result, walk, last.store⟩ ∧
      last.processor = state.processor := by
  cases h with
  | unsupported hsupported =>
    cases Machine.follows_nil.1 follows
    exact ⟨by simp [decision, hsupported], rfl⟩
  | enabled hsupported hactive =>
    cases Machine.follows_nil.1 follows
    exact ⟨by simp [decision, hsupported, hactive], rfl⟩
  | walked hwalk => exact hwalk.reads.walk_eq follows

theorem forall_fullWalk {seen presence : Presence} (first : seen.IsClear)
    (last : presence.IsClear) :
    ∀ path outcome, .probe path outcome ∈ settings.fullWalk seen presence → outcome.IsClear := by
  intro path outcome member
  simp only [fullWalk, approach, List.cons_append, List.nil_append, List.mem_cons,
    Exchange.probe.injEq, List.not_mem_nil, or_false] at member
  rcases member with ⟨-, rfl⟩ | ⟨-, rfl⟩ | ⟨-, rfl⟩ | ⟨-, rfl⟩
  · exact .inl rfl
  · exact first
  · exact .inl rfl
  · exact last

/-- Only the probe of the system partition may be refused or fail where a status is
settled. -/
theorem Walk.clear {walk : List Exchange} {status : Status}
    (h : Walk settings walk (.ok status)) :
    (∀ path presence, .probe path presence ∈ walk → presence.IsClear) ∨
      ∃ presence, walk =
        [.probe settings.locations.efiRoot .absent,
          .probe settings.locations.bootEfi presence] := by
  generalize hresult : (Except.ok status : Except Failure Status) = result at h
  cases h with
  | rootBlocked | directoryBlocked | offerBlocked | requestBlocked => cases hresult
  | legacy presence => exact .inr ⟨presence, rfl⟩
  | offerMissing hclear =>
    refine .inl fun path presence member => ?_
    simp only [approach, List.cons_append, List.nil_append, List.mem_cons, Exchange.probe.injEq,
      List.not_mem_nil, or_false] at member
    rcases member with ⟨-, rfl⟩ | ⟨-, rfl⟩ | ⟨-, rfl⟩
    · exact .inl rfl
    · exact hclear
    · exact .inr rfl
  | requestMissing hclear => exact .inl (forall_fullWalk hclear (.inr rfl))
  | requestFound hclear => exact .inl (forall_fullWalk hclear (.inl rfl))

theorem Classified.clear {support : Support} {walk : List Exchange} {status : Status}
    (h : Classified settings support walk (.ok status)) :
    (∀ path presence, .probe path presence ∈ walk → presence.IsClear) ∨
      ∃ presence, walk =
        [.probe settings.locations.efiRoot .absent,
          .probe settings.locations.bootEfi presence] := by
  generalize hresult : (Except.ok status : Except Failure Status) = result at h
  cases h with
  | unsupported | enabled => exact .inl (by simp)
  | walked hwalk =>
    subst hresult
    exact hwalk.clear

theorem Classified.probes {support : Support} {walk : List Exchange}
    {result : Except Failure Status} (h : Classified settings support walk result) :
    ∀ exchange ∈ walk, ∃ path presence, exchange = .probe path presence := by
  cases h with
  | unsupported | enabled => simp
  | walked hwalk => cases hwalk <;> simp [approach, fullWalk]

/-- A classification is one examination of the processor and then the procedure on the
store, whatever the processor and the store answer: it makes no other query, and no
other call to the store than the probes of the procedure. A status is told only where
every probe, but for one of the system partition, said presence or absence. -/
theorem classify_eq_decision (settings : Settings) (machine : Machine κ σ)
    (state : Machine.State κ σ) :
    let examination := settings.examineProcessor.run machine state
    let execution := settings.classify.run.run machine state
    let decision := settings.decision machine.store examination.result examination.final.store
    execution.result = decision.result ∧
    calls execution.trace = calls examination.trace ++ decision.trace ∧
    execution.final = ⟨examination.final.processor, decision.final⟩ ∧
    (∀ exchange ∈ calls examination.trace, exchange.isQuery = true) ∧
    (∀ exchange ∈ decision.trace, ∃ path presence, exchange = .probe path presence) ∧
    ∀ status, execution.result = .ok status →
      (∀ path presence, .probe path presence ∈ decision.trace →
        presence = .present ∨ presence = .absent) ∨
      ∃ presence, decision.trace =
        [.probe settings.locations.efiRoot .absent,
          .probe settings.locations.bootEfi presence] := by
  intro examination execution decision
  obtain ⟨trace, hyields, hfollows, hcalls⟩ :=
    settings.classify.run.exists_yields_follows machine state
  obtain ⟨queries, support, rest, hexamine, rfl, hclassified⟩ := yields_classify hyields
  obtain ⟨middle, hexamined, hwalked⟩ := Machine.follows_append.1 hfollows
  -- An examination on its own asks the same and finds the same.
  obtain ⟨hsupport, hmiddle, hqueries⟩ := hexamine.run_eq hexamined
  rw [← Machine.follows_calls] at hwalked
  obtain ⟨hsame, hprocessor⟩ := hclassified.decision_eq hwalked
  have hdecision : decision = ⟨execution.result, calls rest, execution.final.store⟩ := by
    show settings.decision machine.store examination.result examination.final.store = _
    rw [hsupport, hmiddle]
    exact hsame
  have htrace : decision.trace = calls rest := congrArg Execution.trace hdecision
  rw [htrace]
  refine ⟨(congrArg Execution.result hdecision).symm, ?_, ?_, ?_, ?_, ?_⟩
  · rw [hqueries, ← calls_append]
    exact hcalls.symm
  · have hfinal : decision.final = execution.final.store := congrArg Execution.final hdecision
    have hqueried : examination.final.processor = execution.final.processor := by
      rw [hmiddle]
      exact hprocessor.symm
    rw [hfinal, hqueried]
  · rw [hqueries]
    exact hexamine.queries (Support.asks_examine _)
  · exact hclassified.probes
  · intro status hstatus
    exact (hstatus ▸ hclassified).clear

/-- A platform without firmware files, whose system partition may not be looked at. -/
def veiled : Machine.State Nat Scripted.Entries :=
  ⟨0, Table.ofList [(Locations.bootEfi {}, { probes := [.denied] })]⟩

/-- On it, the one refusal that settles a status is met. -/
theorem classify_eq_decision_veiled :
    let machine := Scripted.stockMachine
    let examination := stock.examineProcessor.run machine veiled
    let decision := stock.decision machine.store examination.result examination.final.store
    (stock.classify.run.run machine veiled).result = .ok .disabled ∧
      ∃ presence, decision.trace =
        [.probe stock.locations.efiRoot .absent, .probe stock.locations.bootEfi presence] := by
  intro machine examination decision
  obtain ⟨-, htrace, -, hqueries, -, hclear⟩ := classify_eq_decision stock machine veiled
  have done : (stock.classify.run.run machine veiled).result = .ok .disabled := by
    decide +kernel
  have hrefused : .probe stock.locations.bootEfi .denied ∈
      calls (stock.classify.run.run machine veiled).trace := by
    decide +kernel
  refine ⟨done, (hclear .disabled done).resolve_left fun hall => ?_⟩
  rw [htrace] at hrefused
  rcases List.mem_append.1 hrefused with hquery | hprobe
  · cases hqueries _ hquery
  · rcases hall _ _ hprobe with hpresent | habsent
    · cases hpresent
    · cases habsent

end Settings

end SgxActivation
