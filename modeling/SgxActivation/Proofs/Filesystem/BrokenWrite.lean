import Mathlib.Control.Monad.Basic
import SgxActivation.Proofs.Filesystem.Store

/-!
# What a write leaves behind

A write opens its file, hands the bytes over by one call, and brings the file to the disk.
Each of these can fail, on any tree and whatever the path is.

* **`Desk`** — a tree with a log of the system calls that are made to it; `Desk.record` spells
  a write out as calls, and `run_record` says that it is the write of the store;
* **`Handed`** — the tree right after the bytes were handed over: the path leads to a node
  that holds what was taken of them if it is a file, and nothing else has changed;
* **`Ended`** — what becomes of this tree, by how the calls went;
* `writeRecord_outcome` — every write of which the file could be opened makes one write call
  and ends in one of these ways, and a write of which it could not changes nothing.
-/

namespace SgxActivation.Filesystem

/-! ## The calls of a write -/

/-- A call to the system on the way of a write. -/
inductive SystemCall where
  | create (path : Path)
  | write (location : Location) (bytes : Bytes)
  | flush (location : Location)
  | sync (location : Location)
  | remove (path : Path)
  deriving DecidableEq, Repr

/-- Whether a call hands bytes over. -/
def SystemCall.isWrite : SystemCall → Bool
  | .write .. => true
  | _ => false

/-- A tree, the calls that were made to it, and the events that were noted. -/
structure Desk where
  files : Files
  calls : List SystemCall := []
  events : List Event := []

namespace Desk

variable {α β : Type}

/-- Makes a call, of which `effect` tells the result and the tree afterwards. -/
def perform (call : SystemCall) (effect : Files → α × Files) : StateM Desk α := fun desk =>
  let (result, files) := effect desk.files
  (result, { desk with files, calls := desk.calls ++ [call] })

/-- Notes an event. -/
def note (event : Event) : StateM Desk Unit :=
  modify fun desk => { desk with events := desk.events ++ [event] }

/-- Opens a path for writing. -/
def create (path : Path) : StateM Desk (Except SystemError Location) :=
  perform (.create path) fun files =>
    match files.openForWriting path with
    | .ok (location, opened) => (.ok location, opened)
    | .error error => (.error error, files)

/-- Hands bytes over to an open node, of which so many are taken as `outcome` says. -/
def write (location : Location) (bytes : Bytes) (outcome : Except SystemError Nat) :
    StateM Desk (Except SystemError Nat) :=
  perform (.write location bytes) fun files =>
    match outcome with
    | .ok count => (outcome, files.fill location (bytes.take count))
    | .error _ => (outcome, files)

/-- Removes the entry that a path names. -/
def remove (path : Path) : StateM Desk (Except SystemError Unit) :=
  perform (.remove path) fun files =>
    match files.unlink path with
    | .ok left => (.ok (), left)
    | .error error => (.error error, files)

/-- Removes what a broken write left behind. -/
def discard (path : Path) (failure : Failure) : StateM Desk (Except Failure Unit) := do
  if let .error error ← remove path then
    note (.remnantLeft path error)
  return .error failure

/-- Writes a record, call by call. -/
def record (deliver : Files → Location → Delivery) (path : Path) (bytes : Bytes) :
    StateM Desk (Except Failure Unit) := do
  match ← create path with
  | .error error =>
    note (.openFailed path error)
    return .error (Files.openFailure path error)
  | .ok location =>
    let delivery := deliver (← get).files location
    match ← write location bytes delivery.written with
    | .error error => discard path (Files.failureAt .unexpected path error)
    | .ok count =>
      if count = bytes.length then
        if let .error error ← perform (.flush location) fun files => (delivery.flushed, files) then
          return .error (Files.failureAt .unexpected path error)
        if let .error error ← perform (.sync location) fun files => (delivery.synced, files) then
          return .error (Files.failureAt .unexpected path error)
        note (.recordWritten path bytes.length)
        return .ok ()
      else discard path ⟨.unexpected, s!"{path.text}: wrote {count} of {bytes.length} bytes"⟩

theorem run_bind (work : StateM Desk α) (next : α → StateM Desk β) (desk : Desk) :
    (work >>= next).run desk = (next (work.run desk).1).run (work.run desk).2 := rfl

theorem run_pure (a : α) (desk : Desk) : (pure a : StateM Desk α).run desk = (a, desk) := rfl

theorem run_perform (call : SystemCall) (effect : Files → α × Files) (desk : Desk) :
    (perform call effect).run desk =
      ((effect desk.files).1,
        { desk with files := (effect desk.files).2, calls := desk.calls ++ [call] }) := rfl

theorem run_note (event : Event) (desk : Desk) :
    (note event).run desk = ((), { desk with events := desk.events ++ [event] }) := rfl

theorem run_get (desk : Desk) : (get : StateM Desk Desk).run desk = (desk, desk) := rfl

theorem run_discard (path : Path) (failure : Failure) (desk : Desk) :
    let reply := desk.files.discard path failure
    (discard path failure).run desk =
      (reply.answer, ⟨reply.state, desk.calls ++ [.remove path], desk.events ++ reply.events⟩) := by
  intro reply
  simp only [reply, discard, remove, Files.discard, run_bind, run_perform]
  cases desk.files.unlink path with
  | ok left => simp only [run_pure, List.append_nil]
  | error error => rfl

/-- A write makes its calls to the same effect as that of the store, and one write call if the
file could be opened. -/
theorem run_record (deliver : Files → Location → Delivery) (files : Files) (path : Path)
    (bytes : Bytes) :
    let reply := files.writeRecord deliver path bytes
    ∃ calls, (record deliver path bytes).run { files } =
        (reply.answer, ⟨reply.state, calls, reply.events⟩) ∧
      calls.filter SystemCall.isWrite = match files.openForWriting path with
        | .ok (location, _) => [.write location bytes]
        | .error _ => [] := by
  intro reply
  simp only [reply, record, create, Files.writeRecord, run_bind, run_perform]
  cases files.openForWriting path with
  | error error => exact ⟨_, rfl, rfl⟩
  | ok result =>
    obtain ⟨location, opened⟩ := result
    simp only [run_bind, run_get, write, run_perform, Files.handOver]
    cases (deliver opened location).written with
    | error error =>
      simp only [run_discard, List.nil_append, List.cons_append]
      exact ⟨_, rfl, rfl⟩
    | ok count =>
      by_cases hwhole : count = bytes.length
      · simp only [if_pos hwhole, run_bind, run_perform, Files.settle]
        cases (deliver opened location).flushed with
        | error error => exact ⟨_, rfl, rfl⟩
        | ok done =>
          simp only [run_bind, run_perform]
          cases (deliver opened location).synced with
          | error error => exact ⟨_, rfl, rfl⟩
          | ok done => exact ⟨_, rfl, rfl⟩
      · simp only [if_neg hwhole, run_discard, List.nil_append, List.cons_append]
        exact ⟨_, rfl, rfl⟩

end Desk

/-! ## The tree after the write call -/

/-- A node with other bytes, if it is a file. -/
def Node.holding (bytes : Bytes) : Node → Node
  | .file mode _ => .file mode bytes
  | node => node

/-- What is taken of a record's bytes. -/
def Delivery.taken (delivery : Delivery) (bytes : Bytes) : Bytes :=
  match delivery.written with
  | .ok count => bytes.take count
  | .error _ => []

namespace Files

variable {files left opened : Files} {path : Path} {location : Location} {bytes : Bytes}

theorem node?_fill (files : Files) (location other : Location) (bytes : Bytes) :
    (files.fill location bytes).node? other =
      if other = location then (files.node? location).map (Node.holding bytes)
      else files.node? other := by
  unfold fill
  split
  · rename_i mode old hnode
    rw [node?_put, hnode]
    rfl
  · rename_i hother
    split
    · rename_i hsame
      subst hsame
      cases hnode : files.node? other with
      | none => rfl
      | some node =>
        cases node with
        | file mode old => exact absurd hnode (hother mode old)
        | directory | link | device => rfl
    · rfl

theorem fill_workingDirectory (files : Files) (location : Location) (bytes : Bytes) :
    (files.fill location bytes).workingDirectory = files.workingDirectory := by
  unfold fill
  split <;> rfl

theorem fill_sizeLimit (files : Files) (location : Location) (bytes : Bytes) :
    (files.fill location bytes).sizeLimit = files.sizeLimit := by
  unfold fill
  split <;> rfl

/-- No path notices the bytes of a file. -/
theorem fill_carries (files : Files) (location : Location) (bytes : Bytes) :
    (files.fill location bytes).Carries files := by
  intro other node hnode
  rw [node?_fill]
  split
  · rename_i hsame
    subst hsame
    rw [hnode]
    cases node with
    | file mode old => exact .inr ⟨mode, old, bytes, rfl, rfl⟩
    | directory | link | device => exact .inl rfl
  · exact .inl hnode

/-- The tree after a path was opened for writing and these bytes were taken: the node that the
path led to holds them if it is a file, or a new file does where the path had led to nothing. -/
structure Handed (files left : Files) (path : Path) (location : Location) (taken : Bytes) :
    Prop where
  leads : left.locate .owner path = .ok location
  target : (files.locate .owner path = .ok location ∧
      left.node? location = (files.node? location).map (Node.holding taken)) ∨
    (∃ directory name, files.find .owner .create path = .ok (.vacancy directory name) ∧
      location = directory ++ [name] ∧ files.node? location = none ∧
      left.node? location = some (.file .newFile taken))
  elsewhere : ∀ other, other ≠ location → left.node? other = files.node? other
  workingDirectory : left.workingDirectory = files.workingDirectory
  sizeLimit : left.sizeLimit = files.sizeLimit

/-- What a call takes replaces what the file held before. -/
theorem Handed.fill {before : Bytes} (h : files.Handed left path location before)
    (taken : Bytes) : files.Handed (left.fill location taken) path location taken where
  leads := locate_carried (fill_carries _ _ _) (fill_workingDirectory ..) h.leads
  target := by
    rw [node?_fill, if_pos rfl]
    rcases h.target with ⟨hlocate, hnode⟩ | ⟨directory, name, hfind, hplace, hnothing, hnode⟩
    · refine .inl ⟨hlocate, ?_⟩
      rw [hnode, Option.map_map]
      congr 1
      funext node
      cases node <;> rfl
    · refine .inr ⟨directory, name, hfind, hplace, hnothing, ?_⟩
      rw [hnode]
      rfl
  elsewhere other hother := by
    rw [node?_fill, if_neg hother]
    exact h.elsewhere other hother
  workingDirectory := (fill_workingDirectory ..).trans h.workingDirectory
  sizeLimit := (fill_sizeLimit ..).trans h.sizeLimit

/-- A node that was opened for writing is empty, if it is a file. -/
theorem truncate_ok (h : files.truncate location = .ok opened) :
    opened = files.fill location [] := by
  unfold truncate at h
  cases hnode : files.node? location with
  | none =>
    rw [hnode] at h
    cases h
    simp only [fill, hnode]
  | some node =>
    rw [hnode] at h
    cases node with
    | directory mode => cases h
    | link | device =>
      cases h
      simp only [fill, hnode]
    | file mode old =>
      simp only at h
      split at h
      · cases h
        rfl
      · cases h

/-- So is a new one. -/
theorem handed_of_open (h : files.openForWriting path = .ok (location, opened)) :
    files.Handed opened path location [] := by
  obtain ⟨found, hfound, h⟩ := bind_ok h
  cases found with
  | node last =>
    obtain ⟨truncated, htruncate, h⟩ := bind_ok h
    cases h
    obtain rfl := truncate_ok htruncate
    have hlocate := locate_of_create hfound
    refine ⟨locate_carried (fill_carries _ _ _) (fill_workingDirectory ..) hlocate,
      .inl ⟨hlocate, ?_⟩, fun other hother => ?_, fill_workingDirectory .., fill_sizeLimit ..⟩
    · rw [node?_fill, if_pos rfl]
    · rw [node?_fill, if_neg hother]
  | vacancy directory name =>
    obtain ⟨rfl, rfl, -⟩ := createFile_ok h
    have hnothing := nothing_of_vacancy hfound
    have hthere : (files.put (directory ++ [name]) (.file .newFile [])).node?
        (directory ++ [name]) = some (.file .newFile []) := by
      rw [node?_put, if_pos rfl]
    have hcarries : (files.put (directory ++ [name]) (.file .newFile [])).Carries files := by
      intro other node hnode
      have hother : other ≠ directory ++ [name] := by
        rintro rfl
        cases hnothing.symm.trans hnode
      rw [node?_put, if_neg hother]
      exact .inl hnode
    refine ⟨locate_of_vacancy hfound hcarries rfl hthere (by simp),
      .inr ⟨directory, name, hfound, rfl, hnothing, hthere⟩, fun other hother => ?_, rfl, rfl⟩
    rw [node?_put, if_neg hother]

/-! ## How a write ends -/

/-- What becomes of the tree after the write call, by how that and the calls behind it went:
the entry that the path names is removed, or stays with a warning; or the whole record stays,
whether or not it was brought to the disk. -/
inductive Ended (left : Files) (path : Path) (location : Location) (length : Nat)
    (delivery : Delivery) (reply : Reply (Except Failure Unit) Files) : Prop
  | removed {detail : String} {entry : Location} (broken : delivery.written ≠ .ok length)
      (answer : reply.answer = .error ⟨.unexpected, detail⟩)
      (names : left.find .owner .remove path = .ok (.node entry))
      (own : entry = location ∨ ∃ target, left.node? entry = some (.link target))
      (state : reply.state = left.drop entry) (quiet : reply.events = [])
  | stuck {detail : String} {error : SystemError} (broken : delivery.written ≠ .ok length)
      (answer : reply.answer = .error ⟨.unexpected, detail⟩)
      (fixed : left.unlink path = .error error) (state : reply.state = left)
      (warned : reply.events.map (fun event => (event.level, event.text)) =
        [(.warn, s!"Failed to remove partially written {path.text}: {error.text}")])
  | unsettled {detail : String} (whole : delivery.written = .ok length)
      (loose : delivery.flushed ≠ .ok () ∨ delivery.synced ≠ .ok ())
      (answer : reply.answer = .error ⟨.unexpected, detail⟩) (state : reply.state = left)
      (quiet : reply.events = [])
  | settled (whole : delivery.written = .ok length) (flushed : delivery.flushed = .ok ())
      (synced : delivery.synced = .ok ()) (answer : reply.answer = .ok ())
      (state : reply.state = left)

section

variable {length : Nat} {delivery : Delivery} {reply : Reply (Except Failure Unit) Files}

/-- A broken write goes on to remove what its path names. -/
theorem ended_discard (leads : left.locate .owner path = .ok location)
    (broken : delivery.written ≠ .ok length) (detail : String) :
    Ended left path location length delivery (left.discard path ⟨.unexpected, detail⟩) := by
  unfold discard
  cases hunlink : left.unlink path with
  | ok cleared =>
    obtain ⟨entry, hentry, rfl⟩ := unlink_ok hunlink
    exact .removed broken rfl hentry (entry_of_remove hentry leads) rfl rfl
  | error error => exact .stuck broken rfl hunlink rfl rfl

theorem ended_settle (path : Path) (location : Location)
    (whole : delivery.written = .ok bytes.length) :
    Ended left path location bytes.length delivery (left.settle path bytes delivery) := by
  unfold settle
  cases hflushed : delivery.flushed with
  | error error => exact .unsettled whole (.inl (by simp [hflushed])) rfl rfl rfl
  | ok done =>
    cases hsynced : delivery.synced with
    | error error => exact .unsettled whole (.inr (by simp [hsynced])) rfl rfl rfl
    | ok done => exact .settled whole hflushed hsynced rfl rfl

/-- Whatever the calls come to, the bytes are handed over and the write ends in one of its
ways. -/
theorem handOver_ended (h : files.Handed opened path location []) (bytes : Bytes)
    (delivery : Delivery) :
    ∃ left, files.Handed left path location (delivery.taken bytes) ∧
      Ended left path location bytes.length delivery
        (opened.handOver path location bytes delivery) := by
  unfold handOver Delivery.taken
  cases hwritten : delivery.written with
  | error error =>
    refine ⟨opened, h, ended_discard h.leads ?_ _⟩
    simp [hwritten]
  | ok count =>
    have hfilled := h.fill (bytes.take count)
    refine ⟨_, hfilled, ?_⟩
    simp only
    split
    · rename_i hwhole
      exact ended_settle path location (hwhole ▸ hwritten)
    · rename_i hshort
      refine ended_discard hfilled.leads ?_ _
      simp [hwritten, hshort]

/-- After the write call nothing changes but the entry that the path names. -/
theorem Ended.state_eq (h : Ended left path location length delivery reply) :
    reply.state = left ∨ ∃ entry, left.find .owner .remove path = .ok (.node entry) ∧
      reply.state = left.drop entry := by
  cases h with
  | removed _ _ names _ state => exact .inr ⟨_, names, state⟩
  | stuck _ _ _ state => exact .inl state
  | unsettled _ _ _ state => exact .inl state
  | settled _ _ _ _ state => exact .inl state

theorem Ended.elsewhere (h : Ended left path location length delivery reply) {other : Location}
    (spared : left.find .owner .remove path ≠ .ok (.node other)) :
    reply.state.node? other = left.node? other := by
  rcases h.state_eq with hstate | ⟨entry, hentry, hstate⟩
  · rw [hstate]
  · have hother : other ≠ entry := by
      rintro rfl
      exact spared hentry
    rw [hstate, node?_drop, if_neg hother]

theorem Ended.workingDirectory (h : Ended left path location length delivery reply) :
    reply.state.workingDirectory = left.workingDirectory := by
  rcases h.state_eq with hstate | ⟨entry, -, hstate⟩
  · rw [hstate]
  · rw [hstate]
    rfl

theorem Ended.sizeLimit (h : Ended left path location length delivery reply) :
    reply.state.sizeLimit = left.sizeLimit := by
  rcases h.state_eq with hstate | ⟨entry, -, hstate⟩
  · rw [hstate]
  · rw [hstate]
    rfl

end

/-- How the write of a record goes on any tree, for any path, and for all that can come of its
calls. If the file cannot be opened, nothing changes. If it is opened, there is one write call,
and nothing changes but the node that the path leads to and the entry that it names. -/
theorem writeRecord_outcome (deliver : Files → Location → Delivery) (files : Files) (path : Path)
    (bytes : Bytes) :
    let reply := files.writeRecord deliver path bytes
    (∀ error, files.openForWriting path = .error error → reply.state = files ∧
      ∃ failure, reply.answer = .error failure ∧
        (failure.kind = .noPrivilege ↔ error = .accessDenied)) ∧
    ∀ location opened, files.openForWriting path = .ok (location, opened) →
      let delivery := deliver opened location
      (∃ calls, (Desk.record deliver path bytes).run { files } =
          (reply.answer, ⟨reply.state, calls, reply.events⟩) ∧
        calls.filter SystemCall.isWrite = [.write location bytes]) ∧
      ∃ left, files.Handed left path location (delivery.taken bytes) ∧
        Ended left path location bytes.length delivery reply ∧
        (∀ other, other ≠ location → left.find .owner .remove path ≠ .ok (.node other) →
          reply.state.node? other = files.node? other) ∧
        reply.state.workingDirectory = files.workingDirectory ∧
        reply.state.sizeLimit = files.sizeLimit := by
  intro reply
  refine ⟨fun error hshut => ?_, fun location opened hopens => ?_⟩
  · have hreply : reply = ⟨.error (openFailure path error), [.openFailed path error], files⟩ := by
      simp only [reply, writeRecord, hshut]
    rw [hreply]
    refine ⟨rfl, _, rfl, ?_⟩
    simp [openFailure, failureAt]
  · intro delivery
    obtain ⟨calls, hrun, hcalls⟩ := Desk.run_record deliver files path bytes
    rw [hopens] at hcalls
    obtain ⟨left, hhanded, hended⟩ := handOver_ended (handed_of_open hopens) bytes delivery
    have hreply : opened.handOver path location bytes delivery = reply := by
      simp only [reply, writeRecord, hopens, delivery]
    rw [hreply] at hended
    refine ⟨⟨calls, hrun, hcalls⟩, left, hhanded, hended, fun other hother hspared => ?_, ?_, ?_⟩
    · exact (hended.elsewhere hspared).trans (hhanded.elsewhere other hother)
    · exact hended.workingDirectory.trans hhanded.workingDirectory
    · exact hended.sizeLimit.trans hhanded.sizeLimit

/-- A link to a file, in a directory that may not be written to. -/
def barred : Files where
  nodes := Table.ofList
    [([], .directory .newDirectory), (["data"], .directory .newDirectory),
      (["data", "sw"], .file .newFile [9, 9, 9, 9, 9, 9, 9, 9]), (["vars"], .directory ⟨0o555⟩),
      (["vars", "sw"], .link "../data/sw")]
  workingDirectory := ["vars"]

/-- A write through the link stops short. The link stays, with a warning, and the file that it
leads to holds what was taken. -/
theorem writeRecord_outcome_barred :
    let reply := barred.writeRecord (fun _ _ => { written := .ok 4 }) ⟨"sw"⟩ [1, 2, 3, 4, 5, 6]
    (∃ opened, barred.openForWriting ⟨"sw"⟩ = .ok (["data", "sw"], opened)) ∧
      reply.events.map (fun event => (event.level, event.text)) =
        [(.warn, "Failed to remove partially written sw: Permission denied (os error 13)")] ∧
      reply.state.node? ["data", "sw"] = some (.file .newFile [1, 2, 3, 4]) ∧
      reply.state.node? ["vars", "sw"] = some (.link "../data/sw") := by
  intro reply
  have hplace : (barred.openForWriting ⟨"sw"⟩).map Prod.fst = .ok ["data", "sw"] := by
    decide +kernel
  obtain ⟨opened, hopens⟩ : ∃ opened,
      barred.openForWriting ⟨"sw"⟩ = .ok (["data", "sw"], opened) := by
    cases hresult : barred.openForWriting ⟨"sw"⟩ with
    | error error =>
      rw [hresult] at hplace
      cases hplace
    | ok result =>
      obtain ⟨location, opened⟩ := result
      rw [hresult] at hplace
      obtain rfl : location = ["data", "sw"] := Except.ok.inj hplace
      exact ⟨opened, rfl⟩
  have hwarned : reply.events.map (fun event => (event.level, event.text)) =
      [(.warn, "Failed to remove partially written sw: Permission denied (os error 13)")] := by
    decide +kernel
  obtain ⟨-, left, hhanded, hended, -⟩ :=
    (writeRecord_outcome (fun _ _ => { written := .ok 4 }) barred ⟨"sw"⟩ [1, 2, 3, 4, 5, 6]).2
      _ _ hopens
  cases hended with
  | removed _ _ _ _ _ quiet =>
    have hevents : reply.events = [] := quiet
    rw [hevents] at hwarned
    cases hwarned
  | unsettled whole | settled whole => cases whole
  | stuck _ _ _ state =>
    have hstate : reply.state = left := state
    rw [hstate]
    refine ⟨⟨opened, hopens⟩, hwarned, ?_, ?_⟩
    · rcases hhanded.target with ⟨-, hnode⟩ | ⟨_, _, -, -, hnothing, -⟩
      · exact hnode.trans (by decide +kernel)
      · exact absurd hnothing (by decide +kernel)
    · exact (hhanded.elsewhere ["vars", "sw"] (by decide)).trans (by decide +kernel)

end Files

end SgxActivation.Filesystem
