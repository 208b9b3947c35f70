import SgxActivation.Proofs.FailedEnable
import SgxActivation.Proofs.WriteProtocol

/-!
# What a successful enable leaves on the filesystem

An enable that says that a reboot is pending has found the request, and then it
changed nothing, or has written it, and then the request is a new file, at the end of
the request's path, with links followed. Whatever was found before is found ever after.

* **`Settings.Recorded`** — the files with the new request, node by node;
* `Operation.quiet_of_present` — where a request is found, no operation writes;
* `Settings.enable_lasts` — so the pending reboot lasts through every later session.
-/

namespace SgxActivation

variable {κ : Type}

open Exchange Filesystem Files

/-- The request is a new file where its path had dangled, with the bytes that take up
the record read from the offer, and every other node is as it was. -/
structure Settings.Recorded (settings : Settings) (files final : Files) (record : Bytes)
    (location : Location) : Prop where
  delivered : (files.read settings.locations.offer Record.Offer.size).answer = .ok record
  found : final.locate .owner settings.locations.request = .ok location
  missing : files.node? location = none
  node? : ∀ other, final.node? other =
    if other = location then some (.file .newFile (Record.requestBytes record))
    else files.node? other

namespace Settings

variable {settings : Settings} {processor : Processor κ} {trace : List Exchange}
  {state last : Machine.State κ Files} {files final : Files} {record : Bytes}
  {location : Location}

/-- The new file is in nobody's way: what could be found before is still found. -/
theorem Recorded.keeps (h : settings.Recorded files final record location) :
    final.Keeps files (files.Broken .owner) := by
  intro place node hnode
  have hother : place ≠ location := by
    rintro rfl
    cases h.missing.symm.trans hnode
  left
  rw [h.node?, if_neg hother]
  exact hnode

theorem Recorded.probe_request (h : settings.Recorded files final record location) :
    (final.probe settings.locations.request).answer = .present := by
  show presence (final.locate .owner settings.locations.request) = .present
  rw [h.found]
  rfl

/-- A request that was missing and is written is recorded. -/
theorem recorded_of_write
    (read : (files.read settings.locations.offer Record.Offer.size).answer = .ok record)
    (missing : (files.probe settings.locations.request).answer = .absent)
    (written : (files.write settings.locations.request (Record.requestBytes record)).answer =
      .ok ()) :
    ∃ location, settings.Recorded files
      (files.write settings.locations.request (Record.requestBytes record)).state record
      location := by
  have hmissing : (files.probe settings.locations.request).answer ≠ .present := by
    rw [missing]
    simp
  obtain ⟨directory, name, ⟨route, cost, hroute, hcost, hdangles⟩, hnode⟩ :=
    write_creates settings.isAbsolute_request hmissing written
  refine ⟨directory ++ [name], read, ?_, hdangles.nothing, hnode⟩
  -- The name that was missing at the end of the path is the one that was put there.
  have hcarries : Carries (files.write settings.locations.request
      (Record.requestBytes record)).state files := by
    intro place node hthere
    have hother : place ≠ directory ++ [name] := by
      rintro rfl
      cases hdangles.nothing.symm.trans hthere
    left
    rw [hnode, if_neg hother]
    exact hthere
  have hthere := (hnode (directory ++ [name])).trans (if_pos rfl)
  exact (locate_ok settings.isAbsolute_request).2
    ⟨route, cost, hroute, hcost, hdangles.filled hcarries hthere (by simp)⟩

/-- How an enable comes to say that a reboot is pending. -/
inductive Succeeded (settings : Settings) (trace : List Exchange) (files final : Files) : Prop
  | found (quiet : Writeless (calls trace)) (same : final = files)
      (request : (files.probe settings.locations.request).answer = .present)
  | recorded {record : Bytes} {location : Location}
      (recorded : settings.Recorded files final record location)

theorem enable_succeeded (finds : settings.Finds ⟨processor, store⟩ ⟨true, false⟩)
    (yields : settings.enable.run.Yields trace (.ok .rebootRequired))
    (follows : Machine.Follows ⟨processor, store⟩ state trace last) :
    (state.store.probe settings.locations.efiRoot).answer = .present ∧
      (state.store.probe settings.locations.offer).answer = .present ∧
      settings.Succeeded trace state.store last.store := by
  obtain ⟨first, classified, rest, hfirst, hsplit, henabling⟩ := yields_enable yields
  have hclassifying := follows
  rw [hsplit] at hclassifying
  obtain ⟨middle, hclassifying, -⟩ := Machine.follows_append.1 hclassifying
  generalize htaken : calls rest = taken at henabling
  generalize hresult : (Except.ok _ : Except Failure Status) = result at henabling
  cases henabling with
  | failed failure => cases hresult
  | settled hstatus =>
    cases hresult
    obtain ⟨hroot, hoffer, hrequest⟩ := probes_of_classified true hfirst hclassifying
    have hquiet : Writeless (calls trace) := by
      rw [hsplit, calls_append, htaken, List.append_nil]
      exact writeless_of_isLook (yields_classify_looks hfirst)
    exact ⟨hroot, hoffer,
      .found hquiet (follows_store (Machine.follows_calls.2 follows) hquiet) hrequest⟩
  | attempted htaking =>
    obtain ⟨hroot, hoffer, hrequest⟩ := probes_of_classified false hfirst hclassifying
    rcases enable_files finds yields follows hroot hoffer hrequest with
      ⟨failure, -, hfailed, -⟩ | ⟨record, hread, hanswer, hstate⟩
    · cases hfailed
    · have hwritten : (state.store.write settings.locations.request
          (Record.requestBytes record)).answer = .ok () := by
        generalize (state.store.write settings.locations.request
          (Record.requestBytes record)).answer = written at hanswer
        cases written with
        | ok done => rfl
        | error failure => cases hanswer
      obtain ⟨location, hrecorded⟩ := recorded_of_write hread hrequest hwritten
      rw [← hstate] at hrecorded
      exact ⟨hroot, hoffer, .recorded hrecorded⟩

end Settings

/-! ## Afterwards -/

/-- Where a request is found, no operation writes: the probe right before a write would
have found it too. -/
theorem Operation.quiet_of_present {settings : Settings} {processor : Processor κ}
    {operation : Operation} {trace : List Exchange} {outcome : Outcome}
    {state last : Machine.State κ Files}
    (yields : (operation.program settings).Yields trace outcome)
    (follows : Machine.Follows ⟨processor, store⟩ state trace last)
    (found : (state.store.probe settings.locations.request).answer = .present) :
    Writeless (calls trace) := by
  rcases (writes_guarded yields).1 with
    hnone | ⟨earlier, examination, seen, record, written, hearlier, hexamination, -, -, hcalls⟩
  · exact hnone
  have hquiet := hearlier.append (Settings.writeless_leadUp seen record hexamination)
  rw [← Machine.follows_calls, hcalls] at follows
  obtain ⟨middle, hfirst, -⟩ := Machine.follows_append.1 follows
  have hmissed : .probe settings.locations.request .absent ∈
      earlier ++ settings.leadUp examination seen record := by
    simp [Settings.leadUp, Settings.fullWalk]
  cases (follows_probe hfirst hquiet hmissed).trans found

namespace Settings

variable {settings : Settings} {processor : Processor κ} {files : Files}

/-- The firmware's files are found, and so is a request. -/
structure Pending (settings : Settings) (files : Files) : Prop where
  root : (files.probe settings.locations.efiRoot).answer = .present
  offer : (files.probe settings.locations.offer).answer = .present
  request : (files.probe settings.locations.request).answer = .present

theorem Pending.classify {trace : List Exchange} {result : Except Failure Status}
    {state last : Machine.State κ Files} (h : settings.Pending state.store)
    (finds : settings.Finds ⟨processor, store⟩ ⟨true, false⟩)
    (yields : settings.classify.run.Yields trace result)
    (follows : Machine.Follows ⟨processor, store⟩ state trace last) :
    result = .ok .rebootRequired :=
  reclassified true finds yields follows h.root h.offer h.request

/-- Whatever is asked of files with a pending request, they stay the same, and every
classification and every enable tells that a reboot is pending. -/
theorem Pending.session (h : settings.Pending files)
    (finds : settings.Finds ⟨processor, store⟩ ⟨true, false⟩) (operations : List Operation)
    {state : Machine.State κ Files} (start : state.store = files) :
    let steps := Session.undisturbed Files operations
    let session := Session.run settings ⟨processor, store⟩ steps state
    session.2.store = files ∧ ∀ operation performance,
      (.perform operation, some performance) ∈ steps.zip session.1 →
      operation = .classify ∨ operation = .enable →
      performance.outcome = .status (.ok .rebootRequired) := by
  intro steps session
  refine Session.run_invariant (fun middle => middle.store = files)
    (fun operation performance => operation = .classify ∨ operation = .enable →
      performance.outcome = .status (.ok .rebootRequired)) ?_ ?_ start
  · intro operation before hbefore
    have hpending : settings.Pending before.store := hbefore ▸ h
    obtain ⟨trace, hyields, hfollows, -⟩ :=
      Session.exists_yields_perform settings ⟨processor, store⟩ operation before
    constructor
    · rintro (rfl | rfl)
      · obtain ⟨result, hclassify, houtcome⟩ := hyields.of_map
        rw [houtcome, hpending.classify finds hclassify hfollows]
      · obtain ⟨result, henable, houtcome⟩ := hyields.of_map
        obtain ⟨first, classified, rest, hfirst, rfl, henabling⟩ := yields_enable henable
        obtain ⟨middle, hclassifying, -⟩ := Machine.follows_append.1 hfollows
        cases hpending.classify finds hfirst hclassifying
        generalize calls rest = taken at henabling
        -- There is nothing to ask for any more, so the status is passed on.
        cases henabling with
        | settled => exact houtcome
    · have hquiet := Operation.quiet_of_present hyields hfollows hpending.request
      exact (follows_store (Machine.follows_calls.2 hfollows) hquiet).trans hbefore
  · intro change member
    exact absurd member Session.alter_not_mem_undisturbed

/-- An enable that tells of a pending reboot tells the truth, and for good. On a fixed
processor with inactive enclaves, every later classification and enable says so too. If
the enable wrote, the request's path leads to a new file that holds the first four and
the last four of the twelve bytes that the offer delivered, and no other node has
changed; if it did not write, no node has. -/
theorem enable_lasts (settings : Settings) (processor : Processor κ) (fixed : processor.Fixed)
    (state : Machine.State κ Files)
    (dormant : (settings.examineProcessor.run ⟨processor, store⟩ state).result = ⟨true, false⟩)
    (done : (settings.enable.run.run ⟨processor, store⟩ state).result = .ok .rebootRequired) :
    let machine : Machine κ Files := ⟨processor, store⟩
    let enabled := settings.enable.run.run machine state
    (∀ operations operation performance,
      (.perform operation, some performance) ∈ (Session.undisturbed Files operations).zip
        (Session.run settings machine (Session.undisturbed Files operations) enabled.final).1 →
      operation = .classify ∨ operation = .enable →
      performance.outcome = .status (.ok .rebootRequired)) ∧
    (∀ path bytes written, .write path bytes written ∈ calls enabled.trace →
      ∃ record location,
        settings.Recorded state.store enabled.final.store record location) ∧
    (Writeless (calls enabled.trace) → enabled.final.store = state.store) := by
  intro machine enabled
  obtain ⟨trace, hyields, hfollows, hcalls⟩ :=
    settings.enable.run.exists_yields_follows machine state
  rw [done] at hyields
  have finds : settings.Finds machine ⟨true, false⟩ := dormant ▸ finds_of_fixed fixed state
  obtain ⟨hroot, hoffer, hsucceeded⟩ := enable_succeeded finds hyields hfollows
  have hpending : settings.Pending enabled.final.store := by
    cases hsucceeded with
    | found hquiet hsame hrequest =>
      have hfiles : enabled.final.store = state.store := hsame
      rw [hfiles]
      exact ⟨hroot, hoffer, hrequest⟩
    | recorded hrecorded =>
      exact ⟨probe_present_of_keeps (settings.isAbsolute_path .efiRoot) hrecorded.keeps hroot,
        probe_present_of_keeps settings.isAbsolute_offer hrecorded.keeps hoffer,
        hrecorded.probe_request⟩
  refine ⟨fun operations => (hpending.session finds operations rfl).2, ?_, ?_⟩
  · intro path bytes written hwrite
    cases hsucceeded with
    | found hquiet hsame hrequest => cases hquiet _ (hcalls ▸ hwrite)
    | recorded hrecorded => exact ⟨_, _, hrecorded⟩
  · intro hquiet
    rw [← hcalls] at hquiet
    exact follows_store (Machine.follows_calls.2 hfollows) hquiet

/-- A platform whose request is a broken link into a directory that may be written to. -/
def dangling : Machine.State Nat Files := ⟨0, { trap with sizeLimit := none }⟩

/-- An enable that writes through a broken link. -/
def writingThrough : Execution (Except Failure Status) (Machine.State Nat Files) :=
  relocated.enable.run.run ⟨Scripted.dormant.processor, store⟩ dangling

/-- A classification and an enable after it say that a reboot is pending, and the link
leads to the new request. -/
theorem enable_lasts_dangling :
    let later := Session.undisturbed Files [.classify, .enable]
    writingThrough.result = .ok .rebootRequired ∧
    (∀ operation performance, (.perform operation, some performance) ∈ later.zip
        (Session.run relocated ⟨Scripted.dormant.processor, store⟩ later writingThrough.final).1 →
      performance.outcome = .status (.ok .rebootRequired)) ∧
    ∃ record location, relocated.Recorded dangling.store writingThrough.final.store record
      location := by
  have done : writingThrough.result = .ok .rebootRequired := by decide +kernel
  have dormant : (relocated.examineProcessor.run ⟨Scripted.dormant.processor, store⟩
      dangling).result = ⟨true, false⟩ := by decide +kernel
  obtain ⟨hlater, hwrote, -⟩ :=
    enable_lasts relocated Scripted.dormant.processor (fun _ _ _ _ => rfl) dangling dormant done
  refine ⟨done, fun operation performance member => ?_, ?_⟩
  · refine hlater [.classify, .enable] operation performance member ?_
    simpa only [Session.undisturbed, List.map_cons, List.map_nil, List.mem_cons,
      Session.Step.perform.injEq, List.not_mem_nil, or_false] using (List.of_mem_zip member).1
  · have hwrites : (calls writingThrough.trace).any (·.isWrite) = true := by decide +kernel
    obtain ⟨exchange, member, hwrite⟩ := List.any_eq_true.1 hwrites
    cases exchange with
    | write path bytes written =>
      have hrecorded := hwrote path bytes written member
      unfold writingThrough
      exact hrecorded
    | _ => cases hwrite

end Settings

end SgxActivation
