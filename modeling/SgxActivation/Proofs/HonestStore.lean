import SgxActivation.Proofs.Scope
import SgxActivation.Proofs.ScriptedStore

/-!
# Honest stores

A store is **honest** about what exists if its answers and a **view** of its state agree:
a probe tells existence, a read delivers the front of a long enough file, and a write
puts its bytes in place or fails and changes nothing. What else there is to a state is
of no account. Honesty is asked for only where operations look, and a write has to be
honest only where the view is **ready** for one.

* **`Honours`** — what one honest exchange does to the view;
* **`Store.Honest`** — every exchange in scope is honest, in **lawful** states;
* `Honest.follows` — along a trace without writes, everything is told by one view;
* **`Store.Obliging`** — writes do not fail;
* `Scripted.honest` — without rules on its probes and reads, a scripted store is honest, and
  without any rules it is obliging as well (`Scripted.obliging_unruled`).
-/

namespace SgxActivation

variable {κ σ : Type}

open Exchange Record

/-- What exists at each path. -/
abbrev View := Path → Option Scripted.Content

namespace View

/-- What a probe says that tells existence. -/
def presence (view : View) (path : Path) : Presence :=
  if (view path).isSome then .present else .absent

/-- The first bytes of a file that has as many. -/
def front? (view : View) (path : Path) (length : Nat) : Option Bytes :=
  match view path with
  | some (.file bytes) => if length ≤ bytes.length then some (bytes.take length) else none
  | _ => none

/-- The view once a file was put at a path. -/
def put (view : View) (path : Path) (bytes : Bytes) : View :=
  Function.update view path (some (.file bytes))

/-- There is an offer, and no directory stands in the request's place. -/
structure Ready (view : View) (settings : Settings) : Prop where
  offer : ∃ bytes, view settings.locations.offer = some (.file bytes)
  request : view settings.locations.request ≠ some .directory

variable {view : View} {path : Path}

theorem put_self (view : View) (path : Path) (bytes : Bytes) :
    view.put path bytes path = some (.file bytes) :=
  Function.update_self _ _ _

theorem put_of_ne {other : Path} (h : other ≠ path) (view : View) (bytes : Bytes) :
    view.put path bytes other = view other :=
  Function.update_of_ne h _ _

theorem presence_eq_present : view.presence path = .present ↔ (view path).isSome = true := by
  unfold presence
  cases (view path).isSome <;> simp

theorem presence_eq_absent : view.presence path = .absent ↔ view path = none := by
  unfold presence
  cases view path <;> simp

theorem front?_of_file {bytes : Bytes} {length : Nat} (file : view path = some (.file bytes))
    (enough : length ≤ bytes.length) : view.front? path length = some (bytes.take length) := by
  simp [front?, file, enough]

/-- Only a file has a front. -/
theorem file_of_front? {front : Bytes} {length : Nat} (h : view.front? path length = some front) :
    ∃ bytes, view path = some (.file bytes) ∧ length ≤ bytes.length ∧
      front = bytes.take length := by
  unfold front? at h
  split at h
  · rename_i bytes hfile
    split at h
    · rename_i henough
      exact ⟨bytes, hfile, henough, (Option.some.inj h).symm⟩
    · cases h
  · cases h

end View

/-! ## Exchanges -/

/-- An honest exchange between two views. -/
inductive Honours (settings : Settings) : View → Exchange → View → Prop
  | event (view event) : Honours settings view (.event event) view
  | query (view leaf subleaf registers) :
      Honours settings view (.query leaf subleaf registers) view
  | probe (view path) : Honours settings view (.probe path (view.presence path)) view
  | delivered {view record} : view.front? settings.locations.offer Offer.size = some record →
      Honours settings view (.read settings.locations.offer Offer.size (.ok record)) view
  | undelivered {view} (detail) : view.front? settings.locations.offer Offer.size = none →
      Honours settings view
        (.read settings.locations.offer Offer.size (.error ⟨.unexpected, detail⟩)) view
  | recorded (view bytes) :
      Honours settings view (.write settings.locations.request bytes (.ok ()))
        (view.put settings.locations.request bytes)
  | refused (view bytes failure) :
      Honours settings view (.write settings.locations.request bytes (.error failure)) view

/-- In lawful states, the answers of a store agree with a view of what exists. -/
structure Store.Honest (store : Store σ) (settings : Settings) (lawful : σ → Prop)
    (view : σ → View) : Prop where
  probe {state : σ} {path : Path} : lawful state → path ∈ settings.paths →
    let reply := store.probe path state
    lawful reply.state ∧
      Honours settings (view state) (.probe path reply.answer) (view reply.state)
  read {state : σ} : lawful state →
    let reply := store.read settings.locations.offer Offer.size state
    lawful reply.state ∧ Honours settings (view state)
      (.read settings.locations.offer Offer.size reply.answer) (view reply.state)
  write {state : σ} (bytes : Bytes) : lawful state → (view state).Ready settings →
    let reply := store.write settings.locations.request bytes state
    lawful reply.state ∧ Honours settings (view state)
      (.write settings.locations.request bytes reply.answer) (view reply.state)

/-- In lawful states, no write fails where the view is ready for it. -/
def Store.Obliging (store : Store σ) (settings : Settings) (lawful : σ → Prop)
    (view : σ → View) : Prop :=
  ∀ {state : σ} (bytes : Bytes), lawful state → (view state).Ready settings →
    (store.write settings.locations.request bytes state).answer = .ok ()

section

variable {settings : Settings} {before after : View} {exchange : Exchange}

/-- Nothing but a write changes what exists. -/
theorem Honours.quiet (h : Honours settings before exchange after)
    (quiet : exchange.isWrite = false) : after = before := by
  cases h with
  | recorded => cases quiet
  | _ => rfl

/-- Nothing but the request ever changes. -/
theorem Honours.elsewhere {path : Path} (h : Honours settings before exchange after)
    (other : path ≠ settings.locations.request) : after path = before path := by
  cases h with
  | recorded bytes => exact View.put_of_ne other _ _
  | _ => rfl

theorem Honours.probe_eq {path : Path} {presence : Presence}
    (h : Honours settings before (.probe path presence) after) :
    presence = before.presence path := by
  cases h
  rfl

theorem Honours.read_ok {path : Path} {length : Nat} {record : Bytes}
    (h : Honours settings before (.read path length (.ok record)) after) :
    before.front? path length = some record := by
  cases h with
  | delivered hfront => exact hfront

theorem Honours.read_error {path : Path} {length : Nat} {failure : Failure}
    (h : Honours settings before (.read path length (.error failure)) after) :
    before.front? path length = none ∧ ∃ detail, failure = ⟨.unexpected, detail⟩ := by
  cases h with
  | undelivered detail hnone => exact ⟨hnone, detail, rfl⟩

theorem Honours.write_ok {path : Path} {bytes : Bytes}
    (h : Honours settings before (.write path bytes (.ok ())) after) :
    after = before.put path bytes := by
  cases h
  rfl

end

namespace Store.Honest

variable {settings : Settings} {machine : Machine κ σ} {lawful : σ → Prop} {view : σ → View}
  {before after state last : Machine.State κ σ} {trace : List Exchange}

/-- Exchanges in scope are honest. -/
theorem takes (honest : machine.store.Honest settings lawful view) {exchange : Exchange}
    (takes : machine.Takes before exchange after) (within : exchange.Within settings.Allows)
    (ready : exchange.isWrite = true → (view before.store).Ready settings)
    (law : lawful before.store) :
    lawful after.store ∧ Honours settings (view before.store) exchange (view after.store) := by
  cases exchange with
  | event event =>
    cases takes
    exact ⟨law, .event _ _⟩
  | query leaf subleaf registers =>
    obtain ⟨-, rfl⟩ := takes
    exact ⟨law, .query _ _ _ _⟩
  | probe path presence =>
    obtain ⟨rfl, rfl⟩ := takes
    exact honest.probe law within
  | read path length result =>
    obtain ⟨rfl, rfl⟩ := within
    obtain ⟨rfl, rfl⟩ := takes
    exact honest.read law
  | write path bytes result =>
    obtain rfl : path = settings.locations.request := within
    obtain ⟨rfl, rfl⟩ := takes
    exact honest.write bytes law (ready rfl)

/-- Along a trace without writes nothing changes, and every exchange is told by the one
view. -/
theorem follows (honest : machine.store.Honest settings lawful view)
    (follows : machine.Follows state trace last)
    (within : ∀ exchange ∈ trace, exchange.Within settings.Allows) (quiet : Writeless trace)
    (law : lawful state.store) :
    lawful last.store ∧ view last.store = view state.store ∧
      ∀ exchange ∈ trace, Honours settings (view state.store) exchange (view state.store) := by
  induction follows with
  | nil => exact ⟨law, rfl, by simp⟩
  | @cons state exchange next rest last htakes hrest ih =>
    obtain ⟨hwithin, hothers⟩ := List.forall_mem_cons.1 within
    obtain ⟨hquiet, hquiets⟩ := List.forall_mem_cons.1 quiet
    have hready : exchange.isWrite = true → (view state.store).Ready settings := by
      intro hwrite
      cases hquiet.symm.trans hwrite
    obtain ⟨hlaw, hhonours⟩ := honest.takes htakes hwithin hready law
    have hsame : view next.store = view state.store := hhonours.quiet hquiet
    obtain ⟨hlast, hview, hall⟩ := ih hothers hquiets hlaw
    rw [hsame] at hhonours hview hall
    exact ⟨hlast, hview, List.forall_mem_cons.2 ⟨hhonours, hall⟩⟩

end Store.Honest

/-! ## Scripted stores -/

namespace Scripted

/-- An entry without its content. -/
def Entry.rules (entry : Entry) : Entry := { entry with content := none }

/-- No rule bends a probe of the firmware's files or a read of the offer. -/
structure Entries.Lawful (settings : Settings) (entries : Entries) : Prop where
  candid : ∀ path ∈ settings.paths, entries.Candid path
  readable : (entries.entry settings.locations.offer).readRule = none

/-- No rule bends anything. -/
def Entries.Unruled (entries : Entries) : Prop := ∀ path, (entries.entry path).rules = {}

namespace Entries

variable {settings : Settings} {entries next : Entries} {path : Path}

/-- Two stores have the same rules. -/
def SameRules (entries next : Entries) : Prop :=
  ∀ path, (next.entry path).rules = (entries.entry path).rules

theorem Lawful.of_sameRules (h : entries.Lawful settings) (same : entries.SameRules next) :
    next.Lawful settings where
  candid path member := (congrArg Entry.probes (same path)).trans (h.candid path member)
  readable := (congrArg Entry.readRule (same settings.locations.offer)).trans h.readable

theorem Unruled.lawful (h : entries.Unruled) (settings : Settings) : entries.Lawful settings where
  candid path _ := congrArg Entry.probes (h path)
  readable := congrArg Entry.readRule (h settings.locations.offer)

theorem entry_probe_of_candid (candid : entries.Candid path) (other : Path) :
    (entries.probe path).state.entry other = entries.entry other := by
  rw [entry_probe]
  split
  · rename_i hsame
    rw [probed_of_candid candid, hsame]
  · rfl

theorem sameRules_write (entries : Entries) (path : Path) (bytes : Bytes) :
    entries.SameRules (entries.write path bytes).state := by
  intro other
  rcases write_cases entries path bytes with ⟨failure, hfailed⟩ | hdone
  · rw [hfailed]
  · rw [hdone, entry_insert]
    split
    · rename_i hsame
      rw [hsame]
      rfl
    · rfl

theorem content?_written (entries : Entries) (path : Path) (bytes : Bytes) :
    content? (entries.insert path { entries.entry path with content := some (.file bytes) }) =
      View.put entries.content? path bytes := by
  funext other
  unfold content? View.put
  rw [entry_insert, Function.update_apply]
  split <;> rfl

theorem readResult_of_lawful (h : entries.Lawful settings) :
    (∃ record, View.front? entries.content? settings.locations.offer Offer.size = some record ∧
        entries.readResult settings.locations.offer Offer.size = .ok record) ∨
      ∃ detail, View.front? entries.content? settings.locations.offer Offer.size = none ∧
        entries.readResult settings.locations.offer Offer.size =
          .error ⟨.unexpected, detail⟩ := by
  have hfront : View.front? entries.content? settings.locations.offer Offer.size =
      (entries.entry settings.locations.offer).front? Offer.size := rfl
  unfold readResult
  rw [h.readable, hfront]
  cases (entries.entry settings.locations.offer).front? Offer.size with
  | some record => exact .inl ⟨record, rfl, rfl⟩
  | none => exact .inr ⟨_, rfl, rfl⟩

end Entries

/-- A scripted store is honest under any law that rules out rules on its probes and its
reads, and that only rules matter for. -/
theorem honest_of_lawful (settings : Settings) {law : Entries → Prop}
    (lawful : ∀ entries, law entries → entries.Lawful settings)
    (ruled : ∀ entries next, law entries → entries.SameRules next → law next) :
    store.Honest settings law Entries.content? where
  probe := by
    intro entries path hlaw member
    have hcandid := (lawful entries hlaw).candid path member
    have hentry := Entries.entry_probe_of_candid hcandid
    have hview : (entries.probe path).state.content? = entries.content? := by
      funext other
      exact congrArg Entry.content (hentry other)
    have hanswer : (entries.probe path).answer = View.presence entries.content? path :=
      (Entries.probe_answer path).trans (Entries.presence_of_candid hcandid)
    refine ⟨ruled entries _ hlaw fun other => congrArg Entry.rules (hentry other), ?_⟩
    show Honours settings entries.content? (.probe path (entries.probe path).answer)
      (entries.probe path).state.content?
    rw [hanswer, hview]
    exact .probe _ _
  read := by
    intro entries hlaw
    refine ⟨hlaw, ?_⟩
    show Honours settings entries.content? (.read settings.locations.offer Offer.size
      (entries.readResult settings.locations.offer Offer.size)) entries.content?
    rcases Entries.readResult_of_lawful (lawful entries hlaw) with
      ⟨record, hfront, hread⟩ | ⟨detail, hnone, hread⟩
    · rw [hread]
      exact .delivered hfront
    · rw [hread]
      exact .undelivered detail hnone
  write := by
    intro entries bytes hlaw _
    refine ⟨ruled entries _ hlaw (Entries.sameRules_write _ _ _), ?_⟩
    show Honours settings entries.content?
      (.write settings.locations.request bytes
        (entries.write settings.locations.request bytes).answer)
      (entries.write settings.locations.request bytes).state.content?
    rcases Entries.write_cases entries settings.locations.request bytes with
      ⟨failure, hfailed⟩ | hdone
    · rw [hfailed]
      exact .refused _ _ _
    · rw [hdone, Entries.content?_written]
      exact .recorded _ _

theorem honest (settings : Settings) :
    store.Honest settings (Entries.Lawful settings) Entries.content? :=
  honest_of_lawful settings (fun _ h => h) fun _ _ h => h.of_sameRules

theorem honest_unruled (settings : Settings) :
    store.Honest settings Entries.Unruled Entries.content? :=
  honest_of_lawful settings (fun _ h => h.lawful settings)
    fun _ _ h same path => (same path).trans (h path)

/-- Without rules, writes do not fail. -/
theorem obliging_unruled (settings : Settings) :
    store.Obliging settings Entries.Unruled Entries.content? := by
  intro entries bytes h _
  have hrule : (entries.entry settings.locations.request).writeRule = none :=
    congrArg Entry.writeRule (h settings.locations.request)
  simp [store, Entries.write, hrule]

end Scripted

end SgxActivation
