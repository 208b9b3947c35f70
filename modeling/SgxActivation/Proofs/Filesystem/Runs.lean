import Mathlib.Control.Monad.Basic
import SgxActivation.Proofs.Enabling
import SgxActivation.Proofs.Scope
import SgxActivation.Proofs.Filesystem.Store

/-!
# Runs on files

What operations meet on a file tree, as long as nothing is written:

* `Filesystem.follows_store` — only a write changes files, so that along a trace
  without one every path is probed as at the start (`follows_probe`);
* `Settings.reclassified` — with the offer in place, a classification follows the
  request, and `probes_of_classified` is the way back;
* `Settings.enable_files` — an enable on files that are ready for a request.
-/

namespace SgxActivation

variable {κ : Type}

open Exchange Filesystem

namespace Filesystem

/-! ## Files along a trace -/

section

variable {processor : Processor κ} {before after : Machine.State κ Files} {path : Path}

/-- Only a write changes files. -/
theorem takes_store {exchange : Exchange}
    (takes : Machine.Takes ⟨processor, store⟩ before exchange after)
    (quiet : exchange.isWrite = false) : after.store = before.store := by
  cases exchange with
  | query leaf subleaf registers =>
    obtain ⟨-, rfl⟩ := takes
    rfl
  | probe path presence =>
    obtain ⟨-, rfl⟩ := takes
    rfl
  | read path length result =>
    obtain ⟨-, rfl⟩ := takes
    show (before.store.read path length).state = before.store
    unfold Files.read
    split <;> rfl
  | write path bytes result => cases quiet
  | event event =>
    cases takes
    rfl

theorem follows_store {trace : List Exchange}
    (follows : Machine.Follows ⟨processor, store⟩ before trace after) (quiet : Writeless trace) :
    after.store = before.store :=
  follows.preserves (fun middle => middle.store = before.store)
    (fun exchange member _ _ htakes h => (takes_store htakes (quiet exchange member)).trans h) rfl

/-- Along a trace without writes, a path is probed as the files say. -/
theorem follows_probe {trace : List Exchange} {presence : Presence}
    (follows : Machine.Follows ⟨processor, store⟩ before trace after) (quiet : Writeless trace)
    (probed : .probe path presence ∈ trace) : presence = (before.store.probe path).answer := by
  induction follows with
  | nil => cases probed
  | @cons state exchange next rest last htakes _ ih =>
    rcases List.mem_cons.1 probed with rfl | member
    · exact htakes.1.symm
    · rw [← takes_store htakes (quiet _ List.mem_cons_self)]
      exact ih (fun other member => quiet other (List.mem_cons_of_mem _ member)) member

end

/-- A record that was read has the length that was asked for. -/
theorem Files.length_read {files : Files} {path : Path} {length : Nat} {record : Bytes}
    (h : (files.read path length).answer = .ok record) : record.length = length := by
  unfold read at h
  split at h
  · cases h
  · unfold recordAt at h
    split at h
    · cases h
    · split at h
      · rename_i hlength
        cases h
        exact hlength
      · cases h

end Filesystem

namespace Settings

open Files

variable {settings : Settings} {processor : Processor κ} {trace : List Exchange}
  {state last : Machine.State κ Files}

/-- With the firmware directory and the offer in place, a classification says what
becomes of the request. -/
theorem reclassified {result : Except Failure Status} (found : Bool)
    (finds : settings.Finds ⟨processor, store⟩ ⟨true, false⟩)
    (yields : settings.classify.run.Yields trace result)
    (follows : Machine.Follows ⟨processor, store⟩ state trace last)
    (root : (state.store.probe settings.locations.efiRoot).answer = .present)
    (offer : (state.store.probe settings.locations.offer).answer = .present)
    (request : (state.store.probe settings.locations.request).answer =
      if found then .present else .absent) :
    result = .ok (if found then .rebootRequired else .interfaceAvailable) := by
  have hquiet := writeless_of_isLook (yields_classify_looks yields)
  obtain ⟨examination, walk, -, rfl, hclassified⟩ := finds.classified yields follows
  rw [← Machine.follows_calls] at follows
  -- An offer that is found is found in the variable directory.
  have hdirectory : (state.store.probe settings.locations.efivarsDir).answer = .present :=
    probe_directory Route.plain_offerVariable (settings.isAbsolute_path .efivarsDir) offer
  have hprobed {path : Path} {presence : Presence} (member : .probe path presence ∈ calls walk) :
      presence = (state.store.probe path).answer :=
    follows_probe follows hquiet (by simp [member])
  generalize calls walk = walked at hclassified hprobed
  cases hclassified with
  | unsupported hsupported => cases hsupported
  | enabled _ hactive => cases hactive
  | walked h =>
    refine h.result_of_offered found ?_ ?_ ?_ ?_
    · exact fun presence member => (hprobed member).trans root
    · exact fun presence member => .inl ((hprobed member).trans hdirectory)
    · exact fun presence member => (hprobed member).trans offer
    · exact fun presence member => (hprobed member).trans request

/-- A classification that tells whether there is a request has found the firmware
directory and the offer. -/
theorem probes_of_classified (found : Bool)
    (yields : settings.classify.run.Yields trace
      (.ok (if found then .rebootRequired else .interfaceAvailable)))
    (follows : Machine.Follows ⟨processor, store⟩ state trace last) :
    (state.store.probe settings.locations.efiRoot).answer = .present ∧
      (state.store.probe settings.locations.offer).answer = .present ∧
      (state.store.probe settings.locations.request).answer =
        if found then .present else .absent := by
  have hquiet := writeless_of_isLook (yields_classify_looks yields)
  obtain ⟨examination, seen, -, -, hcalls⟩ := yields_classify_full found yields
  rw [← Machine.follows_calls] at follows
  refine ⟨?_, ?_, ?_⟩
  · exact (follows_probe follows hquiet (by simp [hcalls, fullWalk, approach])).symm
  · exact (follows_probe follows hquiet (by simp [hcalls, fullWalk])).symm
  · exact (follows_probe follows hquiet (by simp [hcalls, fullWalk])).symm

/-- An enable on files that are ready for a request reads the offer and writes the
request. -/
theorem enable_files {result : Except Failure Status}
    (finds : settings.Finds ⟨processor, store⟩ ⟨true, false⟩)
    (yields : settings.enable.run.Yields trace result)
    (follows : Machine.Follows ⟨processor, store⟩ state trace last)
    (root : (state.store.probe settings.locations.efiRoot).answer = .present)
    (offer : (state.store.probe settings.locations.offer).answer = .present)
    (request : (state.store.probe settings.locations.request).answer = .absent) :
    (∃ failure, (state.store.read settings.locations.offer Record.Offer.size).answer =
        .error failure ∧ result = .error failure ∧ last.store = state.store) ∨
      ∃ record, (state.store.read settings.locations.offer Record.Offer.size).answer = .ok record ∧
        result = (state.store.write settings.locations.request
          (Record.requestBytes record)).answer.map (fun _ => .rebootRequired) ∧
        last.store = (state.store.write settings.locations.request
          (Record.requestBytes record)).state := by
  obtain ⟨first, classified, rest, hfirst, rfl, henabling⟩ := yields_enable yields
  obtain ⟨middle, hclassifying, htaking⟩ := Machine.follows_append.1 follows
  have hquiet := writeless_of_isLook (yields_classify_looks hfirst)
  have hmiddle : middle.store = state.store :=
    follows_store (Machine.follows_calls.2 hclassifying) hquiet
  cases reclassified false finds hfirst hclassifying root offer request
  rw [← Machine.follows_calls] at htaking
  generalize calls rest = taken at henabling htaking
  cases henabling with
  | settled hstatus => exact absurd rfl hstatus
  | attempted h =>
    cases h with
    | @unread failure =>
      have hread := Machine.follows_singleton.1 htaking
      refine .inl ⟨failure, ?_, rfl, ?_⟩
      · rw [← hmiddle]
        exact hread.1
      · rw [← hmiddle]
        exact takes_store hread rfl
    | short hshort hfailed =>
      -- Files are read in whole records or not at all.
      have hread := Machine.follows_singleton.1 htaking
      have hlength := length_read hread.1
      omega
    | @written record written henough =>
      obtain ⟨next, hread, hwrite⟩ := Machine.follows_cons.1 htaking
      obtain ⟨hanswer, rfl⟩ := Machine.follows_singleton.1 hwrite
      have hnext : next.store = state.store := (takes_store hread rfl).trans hmiddle
      rw [← hnext]
      refine .inr ⟨record, ?_, congrArg (Except.map _) hanswer.symm, rfl⟩
      rw [hnext, ← hmiddle]
      exact hread.1

end Settings

end SgxActivation
