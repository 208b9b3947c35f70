import SgxActivation.Config
import SgxActivation.Scripted.Processor
import SgxActivation.Scripted.Store
import SgxActivation.Proofs.Trace

/-!
# Scripted stores along a trace

What one exchange with a scripted store can change, path by path:

* only a successful write to a path changes what exists there
  (`takes_content?`), and it leaves exactly its bytes (`takes_write`);
* a path without a probe rule is **candid**: it stays so (`takes_candid`), and a
  probe tells whether anything exists there (`takes_probe`);
* once something exists at a path, it does so ever after (`takes_exists`);
* **`Entries.Attests`** puts this together for several paths, as an invariant.

Last comes a **stock** platform whose firmware makes an offer, on which the
statements about machines can be tried.
-/

namespace SgxActivation

variable {κ : Type}

namespace Scripted

namespace Entries

variable {entries : Entries} {path other : Path}

/-- No rule bends the probes of a path. -/
def Candid (entries : Entries) (path : Path) : Prop := (entries.entry path).probes = []

/-- Something exists at a path. -/
def Exists (entries : Entries) (path : Path) : Prop := (entries.content? path).isSome = true

theorem exists_of_content? {content : Content} (h : entries.content? path = some content) :
    entries.Exists path := by
  unfold Entries.Exists
  rw [h]
  rfl

theorem entry_insert (entry : Entry) :
    Entries.entry (entries.insert path entry) other =
      if other = path then entry else entries.entry other := by
  unfold Entries.entry
  rw [Table.get?_insert]
  split <;> rfl

/-- A probe changes the rules of its own path only, and nothing that exists. -/
theorem entry_probe (path other : Path) :
    (entries.probe path).state.entry other =
      if other = path then (entries.entry path).probed else entries.entry other := by
  unfold Entries.probe
  split
  · rename_i entry hentry
    rw [entry_insert]
    unfold Entries.entry
    rw [hentry]
    rfl
  · rename_i hnone
    split
    · rename_i hsame
      subst hsame
      simp [Entries.entry, hnone, Entry.probed]
    · rfl

theorem probe_answer (path : Path) :
    (entries.probe path).answer = (entries.entry path).presence := by
  unfold Entries.probe Entries.entry
  split
  · rename_i hentry
    rw [hentry]
    rfl
  · rename_i hnone
    rw [hnone]
    rfl

theorem content_probed (entry : Entry) : entry.probed.content = entry.content := by
  unfold Entry.probed
  split <;> rfl

/-- A single outcome is not used up. -/
theorem probed_of_single {entry : Entry} (single : entry.probes.length ≤ 1) :
    entry.probed = entry := by
  unfold Entry.probed
  split
  · rename_i hprobes
    rw [hprobes] at single
    simp at single
  · rfl

theorem probed_of_candid {entry : Entry} (candid : entry.probes = []) : entry.probed = entry :=
  probed_of_single (by simp [candid])

theorem presence_of_candid {entry : Entry} (candid : entry.probes = []) :
    entry.presence = if entry.content.isSome then .present else .absent := by
  unfold Entry.presence
  rw [candid]

/-- A write fails and changes nothing, or puts its bytes in place. -/
theorem write_cases (entries : Entries) (path : Path) (bytes : Bytes) :
    (∃ failure, entries.write path bytes = ⟨.error failure, [], entries⟩) ∨
      entries.write path bytes = ⟨.ok (), [],
        entries.insert path { entries.entry path with content := some (.file bytes) }⟩ := by
  cases hrule : (entries.entry path).writeRule with
  | none => exact .inr (by simp [Entries.write, hrule])
  | some failure => exact .inl ⟨failure, by simp [Entries.write, hrule]⟩

theorem write_failed {bytes : Bytes} {failure : Failure}
    (h : (entries.write path bytes).answer = .error failure) :
    (entries.write path bytes).state = entries := by
  rcases write_cases entries path bytes with ⟨failure', hfailed⟩ | hdone
  · rw [hfailed]
  · rw [hdone] at h
    cases h

theorem write_ok {bytes : Bytes} (h : (entries.write path bytes).answer = .ok ()) :
    (entries.write path bytes).state =
      entries.insert path { entries.entry path with content := some (.file bytes) } := by
  rcases write_cases entries path bytes with ⟨failure, hfailed⟩ | hdone
  · rw [hfailed] at h
    cases h
  · rw [hdone]

end Entries

/-! ## One exchange -/

section

variable {processor : Processor κ} {before after : Machine.State κ Entries}
  {exchange : Exchange} {path : Path}

/-- Only a successful write to a path changes what exists there. -/
theorem takes_content? (takes : Machine.Takes ⟨processor, store⟩ before exchange after)
    (untouched : ∀ bytes, exchange ≠ .write path bytes (.ok ())) :
    after.store.content? path = before.store.content? path := by
  cases exchange with
  | query leaf subleaf registers =>
    obtain ⟨-, rfl⟩ := takes
    rfl
  | probe probed presence =>
    obtain ⟨-, rfl⟩ := takes
    show ((before.store.probe probed).state.entry path).content = _
    rw [Entries.entry_probe]
    split
    · rename_i hsame
      subst hsame
      exact Entries.content_probed _
    · rfl
  | read read length result =>
    obtain ⟨-, rfl⟩ := takes
    rfl
  | write target bytes result =>
    obtain ⟨hanswer, rfl⟩ := takes
    show (before.store.write target bytes).state.content? path = _
    cases result with
    | error failure => rw [Entries.write_failed hanswer]
    | ok done =>
      have hother : path ≠ target := by
        rintro rfl
        exact untouched bytes rfl
      rw [Entries.write_ok hanswer]
      show (Entries.entry _ path).content = _
      rw [Entries.entry_insert, if_neg hother]
      rfl
  | event event =>
    cases takes
    rfl

theorem takes_write {bytes : Bytes}
    (takes : Machine.Takes ⟨processor, store⟩ before (.write path bytes (.ok ())) after) :
    after.store.content? path = some (.file bytes) := by
  obtain ⟨hanswer, rfl⟩ := takes
  show ((before.store.write path bytes).state.entry path).content = _
  rw [Entries.write_ok hanswer, Entries.entry_insert, if_pos rfl]

theorem takes_exists (takes : Machine.Takes ⟨processor, store⟩ before exchange after)
    (h : before.store.Exists path) : after.store.Exists path := by
  by_cases hwrite : ∃ bytes, exchange = .write path bytes (.ok ())
  · obtain ⟨bytes, rfl⟩ := hwrite
    unfold Entries.Exists
    rw [takes_write takes]
    rfl
  · have huntouched : ∀ bytes, exchange ≠ .write path bytes (.ok ()) := fun bytes heq =>
      hwrite ⟨bytes, heq⟩
    unfold Entries.Exists
    rw [takes_content? takes huntouched]
    exact h

theorem takes_candid (takes : Machine.Takes ⟨processor, store⟩ before exchange after)
    (candid : before.store.Candid path) : after.store.Candid path := by
  cases exchange with
  | query leaf subleaf registers =>
    obtain ⟨-, rfl⟩ := takes
    exact candid
  | probe probed presence =>
    obtain ⟨-, rfl⟩ := takes
    show ((before.store.probe probed).state.entry path).probes = []
    rw [Entries.entry_probe]
    split
    · -- There is no rule to use up.
      rename_i hsame
      subst hsame
      rw [Entries.probed_of_candid candid]
      exact candid
    · exact candid
  | read read length result =>
    obtain ⟨-, rfl⟩ := takes
    exact candid
  | write target bytes result =>
    obtain ⟨hanswer, rfl⟩ := takes
    show ((before.store.write target bytes).state.entry path).probes = []
    cases result with
    | error failure =>
      rw [Entries.write_failed hanswer]
      exact candid
    | ok done =>
      rw [Entries.write_ok hanswer, Entries.entry_insert]
      split
      · rename_i hsame
        subst hsame
        exact candid
      · exact candid
  | event event =>
    cases takes
    exact candid

/-- A probe of a candid path tells whether something exists there. -/
theorem takes_probe {presence : Presence}
    (takes : Machine.Takes ⟨processor, store⟩ before (.probe path presence) after)
    (candid : before.store.Candid path) :
    before.store.Exists path ∧ presence = .present ∨
      ¬ before.store.Exists path ∧ presence = .absent := by
  obtain ⟨rfl, -⟩ := takes
  show before.store.Exists path ∧ (before.store.probe path).answer = .present ∨
    ¬ before.store.Exists path ∧ (before.store.probe path).answer = .absent
  rw [Entries.probe_answer, Entries.presence_of_candid candid]
  by_cases hfound : before.store.Exists path
  · exact .inl ⟨hfound, if_pos hfound⟩
  · exact .inr ⟨hfound, if_neg hfound⟩

end

/-! ## Changes from outside -/

/-- A change of the store that leaves the entry at a path as it is. -/
def Spares (path : Path) (change : Entries → Entries) : Prop :=
  ∀ entries, (change entries).entry path = entries.entry path

/-- Setting an entry spares every other path. -/
theorem spares_insert {path other : Path} (h : path ≠ other) (entry : Entry) :
    Spares path (·.insert other entry) := by
  intro entries
  rw [Entries.entry_insert, if_neg h]

/-- Removing an entry spares every other path. -/
theorem spares_erase {path other : Path} (h : path ≠ other) : Spares path (·.erase other) := by
  intro entries
  unfold Entries.entry
  rw [Table.get?_erase, if_neg h]

theorem Spares.candid {path : Path} {change : Entries → Entries} (h : Spares path change)
    {entries : Entries} (candid : entries.Candid path) : (change entries).Candid path := by
  unfold Entries.Candid
  rw [h entries]
  exact candid

theorem Spares.content? {path : Path} {change : Entries → Entries} (h : Spares path change)
    (entries : Entries) : (change entries).content? path = entries.content? path := by
  unfold Entries.content?
  rw [h entries]

/-! ## Attested paths -/

/-- The probes of the watched paths are candid, and something exists at the needed
ones. -/
structure Entries.Attests (entries : Entries) (watched needed : List Path) : Prop where
  candid : ∀ path ∈ watched, entries.Candid path
  found : ∀ path ∈ needed, entries.Exists path

namespace Entries.Attests

variable {processor : Processor κ} {watched needed : List Path}

theorem takes {before after : Machine.State κ Entries} {exchange : Exchange}
    (h : before.store.Attests watched needed)
    (takes : Machine.Takes ⟨processor, store⟩ before exchange after) :
    after.store.Attests watched needed :=
  ⟨fun path member => takes_candid takes (h.candid path member),
    fun path member => takes_exists takes (h.found path member)⟩

theorem follows {state last : Machine.State κ Entries} {trace : List Exchange}
    (h : state.store.Attests watched needed)
    (follows : Machine.Follows ⟨processor, store⟩ state trace last) :
    last.store.Attests watched needed :=
  follows.preserves (fun middle => middle.store.Attests watched needed)
    (fun _ _ _ _ htakes hmiddle => hmiddle.takes htakes) h

theorem change {entries : Entries} {change : Entries → Entries} (h : entries.Attests watched needed)
    (spared : ∀ path ∈ watched, Spares path change) (within : needed ⊆ watched) :
    (change entries).Attests watched needed := by
  refine ⟨fun path member => (spared path member).candid (h.candid path member), ?_⟩
  intro path member
  unfold Entries.Exists
  rw [(spared path (within member)).content?]
  exact h.found path member

/-- Along a trace, every probe of a watched path tells presence or absence, and
one of a needed path tells presence. -/
theorem probe {state last : Machine.State κ Entries} {trace : List Exchange}
    (h : state.store.Attests watched needed)
    (follows : Machine.Follows ⟨processor, store⟩ state trace last) {path : Path}
    {presence : Presence} (probed : .probe path presence ∈ trace) (member : path ∈ watched) :
    (presence = .present ∨ presence = .absent) ∧ (path ∈ needed → presence = .present) := by
  obtain ⟨before, after, hbefore, htakes⟩ := follows.exists_takes
    (fun middle => middle.store.Attests watched needed)
    (fun _ _ _ htakes hmiddle => hmiddle.takes htakes) h probed
  rcases takes_probe htakes (hbefore.candid path member) with ⟨-, rfl⟩ | ⟨hmissing, rfl⟩
  · exact ⟨.inl rfl, fun _ => rfl⟩
  · exact ⟨.inr rfl, fun hneeded => absurd (hbefore.found path hneeded) hmissing⟩

end Entries.Attests

/-! ## A platform with an offer -/

/-- An Intel processor whose enclave feature is there but not active. -/
def dormant : ProcessorScript where
  before := Table.ofList
    [((0, 0), ⟨22, 0x756e6547, 0x6c65746e, 0x49656e69⟩), ((7, 0), ⟨0, 4, 0, 0⟩)]

/-- The firmware's files where an offer is published and no request is made. -/
def offering (locations : Locations) : Entries :=
  Table.ofList
    [(locations.efiRoot, { content := some .directory }),
      (locations.efivarsDir, { content := some .directory }),
      (locations.offer, { content := some (.file [7, 0, 0, 0, 0, 0, 0, 0, 128, 0, 0, 0]) })]

/-- The stock platform. -/
def stockMachine : Machine Nat Entries := ⟨dormant.processor, store⟩

/-- The stock platform before anything was asked of it. -/
def stockStart : Machine.State Nat Entries := ⟨0, offering {}⟩

end Scripted

/-- The default configuration, which is accepted. -/
def Settings.stock : Settings := ⟨{}, by decide⟩

end SgxActivation
