import SgxActivation.Proofs.Filesystem.Runs
import SgxActivation.Proofs.ScriptedStore

/-!
# What a failed enable leaves on the filesystem

An enable that fails cleans up after itself, so that the firmware still accepts a
request afterwards. There is one exception: where the request's name is a broken
link in a directory that may not be written to, the write goes through the link and
the clean-up cannot remove it. The remnant behind the link then **strands** the
platform, which says that it waits for a reboot.

* **`Settings.Strands`** — the exception;
* `Settings.classify_after_enable` — a failed enable is mistaken for a pending one
  exactly if it strands.
-/

namespace SgxActivation

variable {κ : Type}

open Exchange Filesystem

namespace Settings

open Files

variable {settings : Settings} {processor : Processor κ} {trace : List Exchange}
  {state last : Machine.State κ Files}

/-- What clearing a remnant of the request comes to. -/
theorem probe_cleared (settings : Settings) {files left : Files} {place : Location}
    {missing : String} (h : files.Remnant left settings.locations.request place missing) :
    (left.cleared settings.locations.request).Keeps files (files.Broken .owner) ∧
      ((files.unlink settings.locations.request ≠ .error .accessDenied ∧
        ((left.cleared settings.locations.request).probe settings.locations.request).answer =
          .absent) ∨
      (files.unlink settings.locations.request = .error .accessDenied ∧
        ((left.cleared settings.locations.request).probe settings.locations.request).answer =
          .present)) :=
  Remnant.probe_cleared Route.plain_requestVariable (settings.isAbsolute_path .efivarsDir) h

/-- A classification that finds the firmware ready for a request has found the
firmware directory and the offer, and no request. -/
theorem probes_of_available (yields : settings.classify.run.Yields trace (.ok .interfaceAvailable))
    (follows : Machine.Follows ⟨processor, store⟩ state trace last) :
    (state.store.probe settings.locations.efiRoot).answer = .present ∧
      (state.store.probe settings.locations.offer).answer = .present ∧
      (state.store.probe settings.locations.request).answer = .absent :=
  probes_of_classified false yields follows

/-- On a fixed processor, such a classification tells what every examination finds. -/
theorem finds_of_available (fixed : processor.Fixed)
    (yields : settings.classify.run.Yields trace (.ok .interfaceAvailable))
    (follows : Machine.Follows ⟨processor, store⟩ state trace last) :
    settings.Finds ⟨processor, store⟩ ⟨true, false⟩ := by
  obtain ⟨examination, seen, hexamination, -, hcalls⟩ := yields_classify_full false yields
  rw [← Machine.follows_calls, hcalls] at follows
  obtain ⟨middle, hexamined, -⟩ := Machine.follows_append.1 follows
  intro other found start final hother hfollows
  exact hother.result_unique fixed (Support.asks_examine _) hfollows hexamination
    (Machine.follows_calls.1 hexamined)

/-- What strands a platform: the offer can be read and the request opened, files may
not get as large as a request, and the request's name cannot be removed because its
directory may not be written to. -/
structure Strands (settings : Settings) (files : Files) : Prop where
  offered : ∃ record,
    (files.read settings.locations.offer Record.Offer.size).answer = .ok record
  opens : ∃ opened, files.openForWriting settings.locations.request = .ok opened
  cramped : ∃ limit, files.sizeLimit = some limit ∧ limit < 8
  stuck : files.unlink settings.locations.request = .error .accessDenied

theorem length_requestBytes {record : Bytes} (h : Record.Offer.size ≤ record.length) :
    (Record.requestBytes record).length = 8 := by
  simp [Record.requestBytes, Record.Offer.size] at h ⊢
  omega

/-- What comes of an enable on files that are ready for a request. -/
inductive Aftermath (settings : Settings) (files : Files) (result : Except Failure Status)
    (final : Files) : Prop
  | untouched {failure : Failure} (free : ¬ settings.Strands files)
      (failed : result = .error failure) (same : final = files)
  | recorded (free : ¬ settings.Strands files) (done : result = .ok .rebootRequired)
  | cleared {failure : Failure} (free : ¬ settings.Strands files)
      (failed : result = .error failure) (keeps : final.Keeps files (files.Broken .owner))
      (missing : (final.probe settings.locations.request).answer = .absent)
  | stranded {failure : Failure} (strands : settings.Strands files)
      (failed : result = .error failure) (keeps : final.Keeps files (files.Broken .owner))
      (found : (final.probe settings.locations.request).answer = .present)

theorem enable_aftermath {result : Except Failure Status}
    (finds : settings.Finds ⟨processor, store⟩ ⟨true, false⟩)
    (yields : settings.enable.run.Yields trace result)
    (follows : Machine.Follows ⟨processor, store⟩ state trace last)
    (root : (state.store.probe settings.locations.efiRoot).answer = .present)
    (offer : (state.store.probe settings.locations.offer).answer = .present)
    (request : (state.store.probe settings.locations.request).answer = .absent) :
    settings.Aftermath state.store result last.store := by
  rcases enable_files finds yields follows root offer request with
    ⟨failure, hunread, hfailed, hsame⟩ | ⟨record, hread, hresult, hstate⟩
  · refine .untouched (fun hstrands => ?_) hfailed hsame
    obtain ⟨record, hoffered⟩ := hstrands.offered
    cases hunread.symm.trans hoffered
  have hmissing : (state.store.probe settings.locations.request).answer ≠ .present := by
    rw [request]
    simp
  have hlength := length_requestBytes (Nat.le_of_eq (length_read hread).symm)
  cases write_missing settings.isAbsolute_request (Record.requestBytes record) hmissing with
  | shut closed answer unchanged =>
    rw [answer] at hresult
    refine .untouched (fun hstrands => ?_) hresult (hstate.trans unchanged)
    obtain ⟨opened, hopened⟩ := hstrands.opens
    exact closed opened hopened
  | written fits answer =>
    rw [answer] at hresult
    refine .recorded (fun hstrands => ?_) hresult
    obtain ⟨limit, hlimit, hcramped⟩ := hstrands.cramped
    have hfits := fits limit hlimit
    omega
  | interrupted opens limited cramped remnant answer cleared =>
    rw [answer] at hresult
    rw [hlength] at cramped
    obtain ⟨hkeeps, hcleared⟩ := settings.probe_cleared remnant
    rw [← cleared, ← hstate] at hkeeps hcleared
    rcases hcleared with ⟨hremoved, habsent⟩ | ⟨hstuck, hpresent⟩
    · exact .cleared (fun hstrands => hremoved hstrands.stuck) hresult hkeeps habsent
    · exact .stranded ⟨⟨record, hread⟩, ⟨_, opens⟩, ⟨_, limited, cramped⟩, hstuck⟩ hresult hkeeps
        hpresent

/-- After a classification that finds the firmware ready for a request, an enable that
fails leaves it ready, unless it strands the platform: then the enable fails and the
next classification says that a reboot is pending. -/
theorem classify_after_enable (settings : Settings) (processor : Processor κ)
    (fixed : processor.Fixed) (state : Machine.State κ Files)
    (available : (settings.classify.run.run ⟨processor, store⟩ state).result =
      .ok .interfaceAvailable) :
    let machine : Machine κ Files := ⟨processor, store⟩
    let classified := settings.classify.run.run machine state
    let enabled := settings.enable.run.run machine classified.final
    let again := settings.classify.run.run machine enabled.final
    (¬ settings.Strands state.store → ∀ failure, enabled.result = .error failure →
      again.result = .ok .interfaceAvailable) ∧
    (settings.Strands state.store → (∃ failure, enabled.result = .error failure) ∧
      again.result = .ok .rebootRequired) := by
  intro machine classified enabled again
  obtain ⟨trace, hclassify, hclassifying, -⟩ :=
    settings.classify.run.exists_yields_follows machine state
  obtain ⟨trace', henable, henabling, -⟩ :=
    settings.enable.run.exists_yields_follows machine classified.final
  obtain ⟨trace'', hrepeat, hrepeating, -⟩ :=
    settings.classify.run.exists_yields_follows machine enabled.final
  rw [available] at hclassify
  have finds := finds_of_available fixed hclassify hclassifying
  obtain ⟨hroot, hoffer, hrequest⟩ := probes_of_available hclassify hclassifying
  have hkept : classified.final.store = state.store :=
    follows_store (Machine.follows_calls.2 hclassifying)
      (writeless_of_isLook (yields_classify_looks hclassify))
  rw [← hkept] at hroot hoffer hrequest ⊢
  -- The firmware directory and the offer do not get lost with a broken link.
  have hagain (keeps : enabled.final.store.Keeps classified.final.store
      (classified.final.store.Broken .owner)) (found : Bool)
      (hfound : (enabled.final.store.probe settings.locations.request).answer =
        if found then .present else .absent) :
      again.result = .ok (if found then .rebootRequired else .interfaceAvailable) :=
    reclassified found finds hrepeat hrepeating
      (probe_present_of_keeps (settings.isAbsolute_path .efiRoot) keeps hroot)
      (probe_present_of_keeps settings.isAbsolute_offer keeps hoffer) hfound
  cases enable_aftermath finds henable henabling hroot hoffer hrequest with
  | untouched free failed same =>
    refine ⟨fun _ _ _ => hagain (fun _ _ hnode => .inl ?_) false ?_,
      fun strands => absurd strands free⟩
    · rw [same]
      exact hnode
    · rw [same]
      exact hrequest
  | recorded free done =>
    exact ⟨fun _ _ failed => (by cases done.symm.trans failed), fun strands => absurd strands free⟩
  | cleared free failed keeps missing =>
    exact ⟨fun _ _ _ => hagain keeps false missing, fun strands => absurd strands free⟩
  | stranded strands failed keeps found =>
    exact ⟨fun free => absurd strands free, fun _ => ⟨⟨_, failed⟩, hagain keeps true found⟩⟩

/-- A configuration with short paths. -/
def relocated : Settings where
  config :=
    { locations := { efiRoot := ⟨"/efi"⟩, efivarsDir := ⟨"/efi/vars"⟩, bootEfi := ⟨"/boot"⟩ } }
  accepted := by decide

/-- Files that strand: the request's name is a broken link in a directory that may not
be written to, and files may not get larger than four bytes. -/
def trap : Files where
  nodes := Table.ofList
    [([], .directory .newDirectory), (["data"], .directory .newDirectory),
      (["efi"], .directory .newDirectory), (["efi", "vars"], .directory ⟨0o555⟩),
      (["efi", "vars", Locations.offerVariable],
        .file .newFile [7, 0, 0, 0, 0, 0, 0, 0, 128, 0, 0, 0]),
      (["efi", "vars", Locations.requestVariable], .link "../../data/sw")]
  sizeLimit := some 4

theorem strands_trap : relocated.Strands trap := by
  refine ⟨⟨[7, 0, 0, 0, 0, 0, 0, 0, 128, 0, 0, 0], by decide +kernel⟩, ?_, ⟨4, rfl, by decide⟩, ?_⟩
  · have hopens : (trap.openForWriting relocated.locations.request).isOk = true := by
      decide +kernel
    cases hresult : trap.openForWriting relocated.locations.request with
    | ok opened => exact ⟨opened, rfl⟩
    | error error =>
      rw [hresult] at hopens
      cases hopens
  · have hstuck : (trap.unlink relocated.locations.request).map (fun _ => ()) =
        .error .accessDenied := by
      decide +kernel
    cases hresult : trap.unlink relocated.locations.request with
    | ok files =>
      rw [hresult] at hstuck
      cases hstuck
    | error error =>
      rw [hresult] at hstuck
      cases hstuck
      rfl

theorem classify_after_enable_trap :
    let machine : Machine Nat Files := ⟨Scripted.dormant.processor, store⟩
    let classified := relocated.classify.run.run machine ⟨0, trap⟩
    let enabled := relocated.enable.run.run machine classified.final
    let again := relocated.classify.run.run machine enabled.final
    (∃ failure, enabled.result = .error failure) ∧ again.result = .ok .rebootRequired :=
  (classify_after_enable relocated Scripted.dormant.processor (fun _ _ _ _ => rfl) ⟨0, trap⟩
    (by decide +kernel)).2 strands_trap

/-- A failed enable that is mistaken for a pending one. -/
theorem failed_enable_pending :
    let machine : Machine Nat Files := ⟨Scripted.dormant.processor, store⟩
    let classified := relocated.classify.run.run machine ⟨0, trap⟩
    let enabled := relocated.enable.run.run machine classified.final
    let again := relocated.classify.run.run machine enabled.final
    classified.result = .ok .interfaceAvailable ∧
      enabled.result = .error ⟨.unexpected,
        "/efi/vars/EPCSW-d69a279b-58eb-45d1-a148-771bb9eb5251: wrote 4 of 8 bytes"⟩ ∧
      again.result ≠ .ok .interfaceAvailable := by
  decide +kernel

end Settings

end SgxActivation
