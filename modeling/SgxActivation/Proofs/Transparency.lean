import SgxActivation.Proofs.Enabling
import SgxActivation.Proofs.ScriptedStore
import SgxActivation.Proofs.Sessions

/-!
# Operations that only look

Nothing is remembered between operations, and those that do not write leave no mark on a store
whose probes do not change. So a session can be revised, by leaving some of them out and by
putting others in, and no other step notices.

* **`Machine.Bisimulation`** — states that answer every call alike and stay alike;
  `run_of_bisimulation` — a program does the same in both, call by call and event by event;
* **`Entries.Equivalent`** — stores with the same entry at every path are such states on a
  fixed processor, if no entry has several outcomes for its probes;
* **`Edit`** — a session in two **versions**; `steps` lists those of one of them, and
  `sharedShown` what that version shows for the steps that both have;
* `transparent` — versions that differ by operations that only look show the same, and
  leave the same behind.
-/

namespace SgxActivation

variable {α κ σ : Type}

open Exchange

/-! ## States that cannot be told apart -/

/-- In states that are alike, a machine gives every call the same answer, notes the same
events, and goes on to states that are alike again. -/
def Machine.Bisimulation (machine : Machine κ σ)
    (alike : Machine.State κ σ → Machine.State κ σ → Prop) : Prop :=
  ∀ state other, alike state other → ∀ call,
    (machine.reply other call).answer = (machine.reply state call).answer ∧
      (machine.reply other call).events = (machine.reply state call).events ∧
      alike (machine.reply state call).state (machine.reply other call).state

section

variable {machine : Machine κ σ} {alike : Machine.State κ σ → Machine.State κ σ → Prop}

/-- From states that are alike, a program has the same run. -/
theorem Program.run_of_bisimulation (bisimulation : machine.Bisimulation alike)
    (program : Program α) {state other : Machine.State κ σ} (h : alike state other) :
    (program.run machine other).result = (program.run machine state).result ∧
      (program.run machine other).trace = (program.run machine state).trace ∧
      alike (program.run machine state).final (program.run machine other).final := by
  induction program generalizing state other with
  | done result => exact ⟨rfl, rfl, h⟩
  | ask call next ih =>
    obtain ⟨hanswer, hevents, hafter⟩ := bisimulation state other h call
    obtain ⟨hresult, htrace, hfinal⟩ := ih (machine.reply state call).answer hafter
    rw [run_ask, run_ask]
    simp only [hanswer, hevents, htrace]
    exact ⟨hresult, trivial, hfinal⟩
  | note event next ih =>
    obtain ⟨hresult, htrace, hfinal⟩ := ih h
    rw [run_note, run_note]
    exact ⟨hresult, by simp only [htrace], hfinal⟩

/-- So does an operation. -/
theorem Session.perform_of_bisimulation (bisimulation : machine.Bisimulation alike)
    (settings : Settings) (operation : Operation) {state other : Machine.State κ σ}
    (h : alike state other) :
    (perform settings machine operation other).1 = (perform settings machine operation state).1 ∧
      alike (perform settings machine operation state).2
        (perform settings machine operation other).2 := by
  obtain ⟨hresult, htrace, hfinal⟩ :=
    (operation.program settings).run_of_bisimulation bisimulation h
  exact ⟨by simp only [perform, hresult, htrace], hfinal⟩

end

/-! ## Operations that only look -/

/-- Whether an operation leaves the enable alone. -/
def Operation.isReadOnly : Operation → Bool
  | .classify | .isCapable | .examineProcessor => true
  | .enable => false
  | .evaluate statusOnly => statusOnly

/-- Such an operation queries and probes, and does no more. -/
theorem Operation.yields_looks {settings : Settings} {operation : Operation}
    (readOnly : operation.isReadOnly = true) {trace : List Exchange} {outcome : Outcome}
    (h : (operation.program settings).Yields trace outcome) :
    ∀ exchange ∈ calls trace, exchange.isLook = true := by
  cases operation with
  | classify =>
    obtain ⟨result, hclassify, rfl⟩ := h.of_map
    exact Settings.yields_classify_looks hclassify
  | enable => cases readOnly
  | isCapable =>
    obtain ⟨result, hcapable, rfl⟩ := h.of_map
    exact Settings.yields_isCapable_looks hcapable
  | examineProcessor =>
    obtain ⟨support, hexamine, rfl⟩ := h.of_map
    exact Settings.yields_examineProcessor_looks hexamine
  | evaluate statusOnly =>
    obtain rfl : statusOnly = true := readOnly
    obtain ⟨report, hevaluate, rfl⟩ := h.of_map
    exact Settings.yields_evaluate_looks hevaluate

/-! ## Scripted stores that cannot be told apart -/

namespace Scripted

namespace Entries

variable {entries other last : Entries}

/-- The same entry at every path, or none. -/
def Equivalent (entries other : Entries) : Prop := ∀ path, other.get? path = entries.get? path

/-- No path has several outcomes for its probes. -/
def Single (entries : Entries) : Prop := ∀ path, (entries.entry path).probes.length ≤ 1

theorem Equivalent.symm (h : entries.Equivalent other) : other.Equivalent entries :=
  fun path => (h path).symm

theorem Equivalent.trans (h : entries.Equivalent other) (h' : other.Equivalent last) :
    entries.Equivalent last := fun path => (h' path).trans (h path)

theorem Equivalent.entry (h : entries.Equivalent other) (path : Path) :
    other.entry path = entries.entry path := by
  unfold Entries.entry
  rw [h path]

theorem Equivalent.single (h : entries.Equivalent other) (single : entries.Single) :
    other.Single := by
  intro path
  rw [h.entry path]
  exact single path

theorem Equivalent.insert (h : entries.Equivalent other) (path : Path) (entry : Entry) :
    Equivalent (entries.insert path entry) (other.insert path entry) := by
  intro place
  rw [Table.get?_insert, Table.get?_insert, h place]

theorem Equivalent.erase (h : entries.Equivalent other) (path : Path) :
    Equivalent (entries.erase path) (other.erase path) := by
  intro place
  rw [Table.get?_erase, Table.get?_erase, h place]

/-- A single outcome is not used up, so a probe leaves every entry as it was. -/
theorem Single.probe (single : entries.Single) (path : Path) :
    entries.Equivalent (entries.probe path).state := by
  intro place
  unfold Entries.probe
  split
  · rename_i entry hentry
    have hsingle : entry.probes.length ≤ 1 := by
      have hpath := single path
      unfold Entries.entry at hpath
      rwa [hentry] at hpath
    rw [probed_of_single hsingle, Table.get?_insert]
    split
    · rename_i hsame
      rw [hsame, hentry]
    · rfl
  · rfl

/-- A write does the same to both. -/
theorem Equivalent.write (h : entries.Equivalent other) (path : Path) (bytes : Bytes) :
    (other.write path bytes).answer = (entries.write path bytes).answer ∧
      (other.write path bytes).events = (entries.write path bytes).events ∧
      (entries.write path bytes).state.Equivalent (other.write path bytes).state := by
  simp only [Entries.write, h.entry path]
  cases (entries.entry path).writeRule with
  | some failure => exact ⟨rfl, rfl, h⟩
  | none => exact ⟨rfl, rfl, h.insert path _⟩

/-- What is written does not touch the rules on probes. -/
theorem Single.write (single : entries.Single) (path : Path) (bytes : Bytes) :
    (entries.write path bytes).state.Single := by
  rcases write_cases entries path bytes with ⟨failure, hfailed⟩ | hdone
  · rw [hfailed]
    exact single
  · rw [hdone]
    intro place
    rw [entry_insert]
    split
    · exact single path
    · exact single place

end Entries

variable {processor : Processor κ} {state other : Machine.State κ Entries}

/-- States with equivalent stores without several outcomes for any probe, whatever the state
of the processor. -/
def Alike (state other : Machine.State κ Entries) : Prop :=
  state.store.Single ∧ state.store.Equivalent other.store

theorem Alike.symm (h : Alike state other) : Alike other state :=
  ⟨h.2.single h.1, h.2.symm⟩

theorem Alike.trans {last : Machine.State κ Entries} (h : Alike state other)
    (h' : Alike other last) : Alike state last :=
  ⟨h.1, h.2.trans h'.2⟩

/-- Such states cannot be told apart beside a fixed processor. -/
theorem bisimulation_alike (fixed : processor.Fixed) :
    Machine.Bisimulation ⟨processor, store⟩ Alike := by
  intro state other ⟨single, equivalent⟩ call
  cases call with
  | query leaf subleaf => exact ⟨fixed leaf subleaf _ _, rfl, single, equivalent⟩
  | probe path =>
    have hsingle := equivalent.single single
    refine ⟨?_, ?_, (single.probe path).single single, ?_⟩
    · show (other.store.probe path).answer = (state.store.probe path).answer
      rw [Entries.probe_answer, Entries.probe_answer, equivalent.entry path]
    · show (other.store.probe path).events = (state.store.probe path).events
      unfold Entries.probe
      split <;> split <;> rfl
    · exact (single.probe path).symm.trans (equivalent.trans (hsingle.probe path))
  | read path length =>
    refine ⟨?_, rfl, single, equivalent⟩
    show other.store.readResult path length = state.store.readResult path length
    unfold Entries.readResult
    rw [equivalent.entry path]
  | write path bytes =>
    obtain ⟨hanswer, hevents, hafter⟩ := equivalent.write path bytes
    exact ⟨hanswer, hevents, single.write path bytes, hafter⟩

/-- What only looks leaves every entry as it was. -/
theorem follows_looks {last : Machine.State κ Entries} {trace : List Exchange}
    (single : state.store.Single)
    (follows : Machine.Follows ⟨processor, store⟩ state trace last)
    (looks : ∀ exchange ∈ calls trace, exchange.isLook = true) :
    state.store.Equivalent last.store := by
  refine (Machine.follows_calls.2 follows).preserves
    (fun middle => state.store.Equivalent middle.store) ?_ fun _ => rfl
  intro exchange member before after htakes hbefore
  have hlook := looks exchange member
  cases exchange with
  | query leaf subleaf registers =>
    obtain ⟨-, rfl⟩ := htakes
    exact hbefore
  | probe path presence =>
    obtain ⟨-, rfl⟩ := htakes
    exact hbefore.trans ((hbefore.single single).probe path)
  | read | write => cases hlook
  | event event => cases hlook

theorem perform_readOnly {settings : Settings} {operation : Operation}
    (readOnly : operation.isReadOnly = true) (single : state.store.Single) :
    Alike state (Session.perform settings ⟨processor, store⟩ operation state).2 := by
  obtain ⟨trace, hyields, hfollows, -⟩ :=
    Session.exists_yields_perform settings ⟨processor, store⟩ operation state
  exact ⟨single, follows_looks single hfollows (Operation.yields_looks readOnly hyields)⟩

/-- A change from outside that goes by the entries alone, and gives no path several outcomes
for its probes. -/
structure Discreet (change : Entries → Entries) : Prop where
  equivalent : ∀ entries other, entries.Equivalent other →
    (change entries).Equivalent (change other)
  single : ∀ entries, entries.Single → (change entries).Single

/-- Setting an entry is such a change, if it has no list of outcomes. -/
theorem discreet_insert (path : Path) {entry : Entry} (single : entry.probes.length ≤ 1) :
    Discreet (·.insert path entry) where
  equivalent _ _ h := h.insert path entry
  single entries hentries place := by
    rw [Entries.entry_insert]
    split
    · exact single
    · exact hentries place

/-- So is removing one. -/
theorem discreet_erase (path : Path) : Discreet (·.erase path) where
  equivalent _ _ h := h.erase path
  single entries hentries place := by
    unfold Entries.entry
    rw [Table.get?_erase]
    split
    · exact Nat.zero_le 1
    · exact hentries place

end Scripted

/-! ## Sessions in two versions -/

namespace Session

/-- One of two versions of a session. -/
inductive Version where
  | old
  | new
  deriving DecidableEq, Repr

/-- A step of a session in two versions. -/
inductive Edit (σ : Type) where
  /-- Both versions have this step. -/
  | shared (step : Step σ)
  /-- One version alone performs this operation: it is deleted from the old version, or
  inserted into the new one. -/
  | only (version : Version) (operation : Operation)

/-- The step of a version, if it has one here. -/
def Edit.step? (version : Version) : Edit σ → Option (Step σ)
  | .shared step => some step
  | .only own operation => if own = version then some (.perform operation) else none

/-- The steps of a version. -/
def steps (version : Version) (edits : List (Edit σ)) : List (Step σ) :=
  edits.filterMap (Edit.step? version)

/-- What a version shows for the steps that both versions have, of all that it shows. -/
def sharedShown (version : Version) :
    List (Edit σ) → List (Option Performance) → List (Option Performance)
  | [], _ => []
  | .shared _ :: rest, shown => shown.take 1 ++ sharedShown version rest (shown.drop 1)
  | .only own _ :: rest, shown =>
    sharedShown version rest (if own = version then shown.drop 1 else shown)

open Scripted

section

variable {settings : Settings} {processor : Processor κ} {state other : Machine.State κ Entries}
  {edits : List (Edit Entries)}

variable (settings) in
/-- One step that both versions have shows the same in both. -/
theorem step_alike (fixed : processor.Fixed) {step : Step Entries}
    (discreet : ∀ change, step = .alter change → Discreet change) (h : Alike state other) :
    (Session.step settings ⟨processor, store⟩ other step).1 =
        (Session.step settings ⟨processor, store⟩ state step).1 ∧
      Alike (Session.step settings ⟨processor, store⟩ state step).2
        (Session.step settings ⟨processor, store⟩ other step).2 := by
  cases step with
  | perform operation =>
    obtain ⟨hshown, hafter⟩ :=
      perform_of_bisimulation (bisimulation_alike fixed) settings operation h
    exact ⟨congrArg some hshown, hafter⟩
  | alter change =>
    obtain ⟨hequivalent, hsingle⟩ := discreet change rfl
    exact ⟨rfl, hsingle _ h.1, hequivalent _ _ h.2⟩

variable (settings) in
/-- Both versions, each from one of two states that are alike. -/
theorem run_versions (fixed : processor.Fixed)
    (readOnly : ∀ version operation, Edit.only version operation ∈ edits →
      operation.isReadOnly = true)
    (discreet : ∀ change, Edit.shared (.alter change) ∈ edits → Discreet change)
    (h : Alike state other) :
    let session := run settings ⟨processor, store⟩
    sharedShown .new edits (session (steps .new edits) other).1 =
        sharedShown .old edits (session (steps .old edits) state).1 ∧
      Alike (session (steps .old edits) state).2 (session (steps .new edits) other).2 := by
  intro session
  induction edits generalizing state other with
  | nil => exact ⟨rfl, h⟩
  | cons edit rest ih =>
    have hnext {next next' : Machine.State κ Entries} (hstates : Alike next next') :=
      ih (fun version operation member => readOnly version operation (.tail _ member))
        (fun change member => discreet change (.tail _ member)) hstates
    cases edit with
    | shared step =>
      obtain ⟨hshown, hafter⟩ := step_alike settings fixed
        (fun change hstep => discreet change (hstep ▸ List.mem_cons_self)) h
      obtain ⟨hrest, hlast⟩ := hnext hafter
      have hfirst (version : Version) (start : Machine.State κ Entries) :
          sharedShown version (.shared step :: rest)
              (session (steps version (.shared step :: rest)) start).1 =
            (Session.step settings ⟨processor, store⟩ start step).1 ::
              sharedShown version rest (session (steps version rest)
                (Session.step settings ⟨processor, store⟩ start step).2).1 := rfl
      exact ⟨by rw [hfirst, hfirst, hshown, hrest], hlast⟩
    | only version operation =>
      have hquiet := readOnly version operation List.mem_cons_self
      cases version with
      | old => exact hnext ((perform_readOnly hquiet h.1).symm.trans h)
      | new => exact hnext (h.trans (perform_readOnly hquiet h.symm.1))

theorem alter_mem_steps {version : Version} {change : Entries → Entries}
    (h : Step.alter change ∈ steps version edits) : Edit.shared (.alter change) ∈ edits := by
  obtain ⟨edit, member, hstep⟩ := List.mem_filterMap.1 h
  cases edit with
  | shared step =>
    cases hstep
    exact member
  | only own operation =>
    simp only [Edit.step?] at hstep
    split at hstep <;> cases hstep

/-- No probe gets several outcomes in the course of a session. -/
theorem run_single (fixed : processor.Fixed) {session : List (Step Entries)}
    (discreet : ∀ change, Step.alter change ∈ session → Discreet change)
    (single : state.store.Single) :
    (run settings ⟨processor, store⟩ session state).2.store.Single := by
  refine (run_invariant (fun middle : Machine.State κ Entries => middle.store.Single)
    (fun _ _ => True) (fun operation before hbefore => ⟨trivial, ?_⟩)
    (fun change member before hbefore => (discreet change member).single _ hbefore) single).1
  have hself : Alike before before := ⟨hbefore, fun _ => rfl⟩
  exact (perform_of_bisimulation (bisimulation_alike fixed) settings operation hself).2.1

end

/-- A session in two versions, of which one has operations that only look where the other has
not: on a fixed processor, and on a store that has at most one outcome for the probes of each
path, both versions show the same for all that they share, result, calls, queries and events,
and leave the same entries behind. Every operation that only looks leaves all entries as it
finds them. -/
theorem transparent (settings : Settings) (processor : Processor κ) (fixed : processor.Fixed)
    (edits : List (Edit Entries)) (state : Machine.State κ Entries)
    (single : state.store.Single)
    (readOnly : ∀ version operation, Edit.only version operation ∈ edits →
      operation.isReadOnly = true)
    (discreet : ∀ change, Edit.shared (.alter change) ∈ edits → Discreet change) :
    let session version := run settings ⟨processor, store⟩ (steps version edits) state
    sharedShown .new edits (session .new).1 = sharedShown .old edits (session .old).1 ∧
    (session .old).2.store.Equivalent (session .new).2.store ∧
    ∀ version earlier operation later,
      steps version edits = earlier ++ .perform operation :: later →
      operation.isReadOnly = true →
      let before := (run settings ⟨processor, store⟩ earlier state).2
      before.store.Equivalent (perform settings ⟨processor, store⟩ operation before).2.store := by
  intro session
  obtain ⟨hshown, -, hlast⟩ := run_versions settings fixed readOnly discreet
    (⟨single, fun _ => rfl⟩ : Alike state state)
  refine ⟨hshown, hlast, fun version earlier operation later hsplit hquiet => ?_⟩
  have hearlier : ∀ change, Step.alter change ∈ earlier → Discreet change := by
    intro change member
    have hmem : Step.alter change ∈ steps version edits :=
      hsplit ▸ List.mem_append_left _ member
    exact discreet change (alter_mem_steps hmem)
  exact (perform_readOnly hquiet (run_single fixed hearlier single)).2

/-- On the stock platform, looks before and after the enable are put in and left out, while the
system partition comes to be refused; the request is recorded all the same. -/
theorem transparent_stock :
    let edits : List (Edit Entries) :=
      [.only .new .classify, .shared (.perform .enable), .only .old (.evaluate true),
        .shared (.alter (·.insert ⟨"/boot/efi"⟩ { probes := [.denied] })), .only .new .isCapable,
        .only .new .examineProcessor, .shared (.perform (.evaluate false))]
    let session version := run Settings.stock stockMachine (steps version edits) stockStart
    stockStart.store.Single ∧ (session .new).1.length = 6 ∧ (session .old).1.length = 4 ∧
      sharedShown .new edits (session .new).1 = sharedShown .old edits (session .old).1 ∧
      (session .new).2.store.content? (Locations.request {}) =
        some (.file [7, 0, 0, 0, 128, 0, 0, 0]) := by
  intro edits session
  have hsingle : stockStart.store.Single := by
    intro path
    simp only [stockStart, offering, Table.ofList, List.foldl_cons, List.foldl_nil,
      Entries.entry_insert]
    split
    · exact Nat.zero_le 1
    · split
      · exact Nat.zero_le 1
      · split <;> exact Nat.zero_le 1
  obtain ⟨hshown, hlast, -⟩ := transparent Settings.stock dormant.processor
    (fun _ _ _ _ => rfl) edits stockStart hsingle
    (fun version operation member => by
      simp only [edits, List.mem_cons, List.not_mem_nil, reduceCtorEq, Edit.only.injEq, or_false,
        false_or] at member
      rcases member with ⟨-, rfl⟩ | ⟨-, rfl⟩ | ⟨-, rfl⟩ | ⟨-, rfl⟩ <;> rfl)
    (fun change member => by
      simp only [edits, List.mem_cons, List.not_mem_nil, reduceCtorEq, Edit.shared.injEq,
        Step.alter.injEq, or_false, false_or] at member
      exact member ▸ discreet_insert _ (Nat.le_refl 1))
  have hwritten : (session .old).2.store.content? (Locations.request {}) =
      some (.file [7, 0, 0, 0, 128, 0, 0, 0]) := by rfl
  refine ⟨hsingle, by rfl, by rfl, hshown, ?_⟩
  exact (congrArg Entry.content (hlast.entry _)).trans hwritten

end Session

end SgxActivation
