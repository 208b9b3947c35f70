import SgxActivation.Proofs.Favourable
import SgxActivation.Proofs.HonestStore
import SgxActivation.Proofs.Interleaving

/-!
# The unguarded race

Nothing protects the time between the probes of an enable and its write. Here any number
of operations run at the same time on one honest store, in any order of their calls:

* **`Race`** — a platform with a whole offer, an honest store and a fixed processor;
* **`Race.Attests`** — what one exchange of the past still says about what exists now;
* `Coherent.advance` — a turn leaves the request as it was, or puts there the bytes that
  the offer asks for, and so keeps all that was attested;
* `Race.benign` — so the race does no harm.
-/

namespace SgxActivation

variable {ι κ σ : Type}

open Exchange Record

/-- What exists goes on to exist as it is. -/
def View.Grows (before after : View) : Prop :=
  ∀ path, (before path).isSome = true → after path = before path

theorem View.Grows.trans {before middle after : View} (first : before.Grows middle)
    (second : middle.Grows after) : before.Grows after := by
  intro path hthere
  have hmiddle := first path hthere
  rw [second path (by rw [hmiddle]; exact hthere), hmiddle]

/-- A platform on which operations run at the same time: a store that is honest about
what exists, a fixed processor, and an offer of at least twelve bytes. -/
structure Race (κ σ : Type) where
  settings : Settings
  machine : Machine κ σ
  lawful : σ → Prop
  view : σ → View
  honest : machine.store.Honest settings lawful view
  fixed : machine.processor.Fixed
  start : Machine.State κ σ
  law : lawful start.store
  record : Bytes
  offered : view start.store settings.locations.offer = some (.file record)
  enough : Offer.size ≤ record.length

namespace Race

variable (race : Race κ σ)

/-- What exists at first. -/
def initial : View := race.view race.start.store

/-- What exists now. -/
def now {α : Type} (crowd : Crowd ι κ σ α) : View := race.view crowd.shared.store

/-- What the processor answers, always. -/
def answers (leaf subleaf : UInt32) : Registers :=
  (race.machine.processor.query leaf subleaf race.start.processor).1

/-- The operations before the first turn. -/
def crowd (operations : ι → Operation) : Crowd ι κ σ Outcome :=
  .start race.start fun i => (operations i).program race.settings

/-- What an exchange that took place says about the platform, once and for all. What was
found is still there, and what was missed was not there at first. -/
def Attests (now : View) : Exchange → Prop
  | .query leaf subleaf registers => registers = race.answers leaf subleaf
  | .probe path presence =>
    presence = .present ∧ (now path).isSome = true ∨
      presence = .absent ∧ race.initial path = none
  | .read _ _ result => result = .ok (race.record.take Offer.size)
  | .write path _ result => result = .ok () → (now path).isSome = true
  | .event _ => True

variable {race : Race κ σ}

theorem Attests.mono {before after : View} {exchange : Exchange}
    (h : race.Attests before exchange) (grows : before.Grows after) :
    race.Attests after exchange := by
  cases exchange with
  | probe path presence =>
    rcases h with ⟨hpresent, hthere⟩ | habsent
    · exact .inl ⟨hpresent, by rw [grows path hthere]; exact hthere⟩
    · exact .inr habsent
  | write path bytes result =>
    intro hdone
    have hthere := h hdone
    rw [grows path hthere]
    exact hthere
  | query | read | event => exact h

/-- The invariant of a race. Only the request may have come into being since the start, by
a write that had seen the firmware directory and missed the request; and the past of
every run still speaks for what exists. -/
structure Coherent (race : Race κ σ) (operations : ι → Operation)
    (crowd : Crowd ι κ σ Outcome) : Prop where
  law : race.lawful crowd.shared.store
  elsewhere : ∀ path, path ≠ race.settings.locations.request →
    race.now crowd path = race.initial path
  request : race.now crowd race.settings.locations.request =
      race.initial race.settings.locations.request ∨
    race.settings.locations.efiRoot ≠ race.settings.locations.request ∧
      race.initial race.settings.locations.request = none ∧
      race.now crowd race.settings.locations.request =
        some (.file (requestBytes race.record))
  fits : ∀ i, (crowd.runs i).Fits ((operations i).program race.settings)
  scope : ∀ i, (crowd.runs i).rest.Asks race.settings.Allows
  attests : ∀ i, ∀ exchange ∈ (crowd.runs i).past, race.Attests (race.now crowd) exchange

namespace Coherent

variable {operations : ι → Operation} {crowd : Crowd ι κ σ Outcome}

theorem start (race : Race κ σ) (operations : ι → Operation) :
    race.Coherent operations (race.crowd operations) where
  law := race.law
  elsewhere _ _ := rfl
  request := .inl rfl
  fits i := UnderWay.fits_start _
  scope i := Operation.asks_allowed race.settings (operations i)
  attests i exchange member := by cases member

/-- Whatever there was at first is still there. -/
theorem grown (h : race.Coherent operations crowd) : race.initial.Grows (race.now crowd) := by
  intro path hthere
  by_cases hpath : path = race.settings.locations.request
  · subst hpath
    rcases h.request with hsame | ⟨-, hnone, -⟩
    · exact hsame
    · rw [hnone] at hthere
      cases hthere
  · exact h.elsewhere path hpath

theorem root (h : race.Coherent operations crowd) :
    race.now crowd race.settings.locations.efiRoot =
      race.initial race.settings.locations.efiRoot := by
  by_cases hroot : race.settings.locations.efiRoot = race.settings.locations.request
  · rcases h.request with hsame | ⟨hother, -⟩
    · rw [hroot]
      exact hsame
    · exact absurd hroot hother
  · exact h.elsewhere _ hroot

theorem offer (h : race.Coherent operations crowd) :
    race.now crowd race.settings.locations.offer = some (.file race.record) :=
  (h.elsewhere _ race.settings.offer_ne_request).trans race.offered

/-- A probe of the firmware directory tells what there was from the start. -/
theorem root_attested (h : race.Coherent operations crowd) {turn : ι} {presence : Presence}
    (member : .probe race.settings.locations.efiRoot presence ∈ (crowd.runs turn).past) :
    presence = .present ∧ (race.initial race.settings.locations.efiRoot).isSome = true ∨
      presence = .absent ∧ race.initial race.settings.locations.efiRoot = none := by
  have hattests := h.attests turn _ member
  rcases hattests with ⟨hpresent, hthere⟩ | habsent
  · rw [h.root] at hthere
    exact .inl ⟨hpresent, hthere⟩
  · exact .inr habsent

/-- A write is one of the request, with the bytes that the offer asks for, where there was
no request at first. -/
theorem guarded (h : race.Coherent operations crowd) {turn : ι} {path : Path} {bytes : Bytes}
    {written : Except Failure Unit} {next : Program Outcome}
    (moves : (crowd.runs turn).rest.Moves (.write path bytes written) next) :
    path = race.settings.locations.request ∧ bytes = requestBytes race.record ∧
      race.initial race.settings.locations.request = none ∧
      race.settings.locations.efiRoot ≠ race.settings.locations.request := by
  -- Any end of the run will do: what stands before the write is past already.
  obtain ⟨trace, hyields, -, -⟩ := next.exists_yields_follows race.machine race.start
  have hwhole := h.fits turn _ _ (moves.yields hyields)
  have hcalls : calls ((crowd.runs turn).past ++ .write path bytes written :: trace) =
      calls (crowd.runs turn).past ++ .write path bytes written :: calls trace := by
    simp
  rcases (Operation.writes_guarded hwhole).1 with
    hnone | ⟨earlier, examination, seen, record, taken, hearlier, hexamination, -, -, hguard⟩
  · rw [hcalls] at hnone
    cases hnone (.write path bytes written) (by simp)
  · have hquiet := hearlier.append (Settings.writeless_leadUp seen record hexamination)
    obtain ⟨hbefore, hwrite, -⟩ :=
      split_unique isWrite hquiet (by simp) rfl (hguard.symm.trans hcalls)
    cases hwrite
    have hpast : ∀ exchange ∈ race.settings.leadUp examination seen record,
        exchange ∈ (crowd.runs turn).past := by
      intro exchange member
      refine mem_of_mem_calls ?_
      rw [hbefore]
      exact List.mem_append_right _ member
    have hread := h.attests turn _
      (hpast (.read race.settings.locations.offer Offer.size (.ok record))
        (by simp [Settings.leadUp]))
    have hmissed := h.attests turn _
      (hpast (.probe race.settings.locations.request .absent)
        (by simp [Settings.leadUp, Settings.fullWalk]))
    have hfound := h.root_attested
      (hpast (.probe race.settings.locations.efiRoot .present)
        (by simp [Settings.leadUp, Settings.fullWalk, Settings.approach]))
    have hnone : race.initial race.settings.locations.request = none := by
      rcases hmissed with ⟨hpresent, -⟩ | ⟨-, hnone⟩
      · cases hpresent
      · exact hnone
    refine ⟨rfl, ?_, hnone, ?_⟩
    · rw [Except.ok.inj hread, requestBytes_take]
    · intro hroot
      rcases hfound with ⟨-, hthere⟩ | ⟨habsent, -⟩
      · rw [hroot, hnone] at hthere
        cases hthere
      · cases habsent

theorem ready (h : race.Coherent operations crowd) {turn : ι} {exchange : Exchange}
    {next : Program Outcome} (moves : (crowd.runs turn).rest.Moves exchange next)
    (write : exchange.isWrite = true) : (race.now crowd).Ready race.settings := by
  cases exchange with
  | write path bytes written =>
    obtain ⟨-, -, hnone, -⟩ := h.guarded moves
    refine ⟨⟨_, h.offer⟩, ?_⟩
    rcases h.request with hsame | ⟨-, -, hfile⟩
    · rw [hsame, hnone]
      simp
    · rw [hfile]
      simp
  | _ => cases write

/-- A move leaves the request as it is or records it; nothing that exists is lost. -/
theorem honoured (h : race.Coherent operations crowd) {turn : ι} {exchange : Exchange}
    {next : Program Outcome} {later : View}
    (moves : (crowd.runs turn).rest.Moves exchange next)
    (honours : Honours race.settings (race.now crowd) exchange later) :
    (race.now crowd).Grows later ∧
      (later race.settings.locations.request = race.now crowd race.settings.locations.request ∨
        race.settings.locations.efiRoot ≠ race.settings.locations.request ∧
          race.initial race.settings.locations.request = none ∧
          later race.settings.locations.request = some (.file (requestBytes race.record))) := by
  cases hwrite : exchange.isWrite with
  | false =>
    rw [honours.quiet hwrite]
    exact ⟨fun _ _ => rfl, .inl rfl⟩
  | true =>
    cases honours with
    | recorded bytes =>
      obtain ⟨-, rfl, hnone, hroot⟩ := h.guarded moves
      have hthere : (race.now crowd).put race.settings.locations.request
          (requestBytes race.record) race.settings.locations.request =
            some (.file (requestBytes race.record)) := View.put_self _ _ _
      refine ⟨fun path hpath => ?_, .inr ⟨hroot, hnone, hthere⟩⟩
      by_cases hsame : path = race.settings.locations.request
      · -- Only another run of the same kind can have been here before.
        subst hsame
        rcases h.request with hfirst | ⟨-, -, hfile⟩
        · rw [hfirst, hnone] at hpath
          cases hpath
        · exact hthere.trans hfile.symm
      · exact View.put_of_ne hsame _ _
    | refused => exact ⟨fun _ _ => rfl, .inl rfl⟩
    | event | query | probe | delivered | undelivered => cases hwrite

theorem attests_move (h : race.Coherent operations crowd) {exchange : Exchange}
    {shared : Machine.State κ σ} {later : View}
    (takes : race.machine.Takes crowd.shared exchange shared)
    (honours : Honours race.settings (race.now crowd) exchange later) :
    race.Attests later exchange := by
  cases exchange with
  | event event => trivial
  | query leaf subleaf registers => exact takes.1.symm.trans (race.fixed _ _ _ _)
  | probe path presence =>
    have hsame := honours.quiet rfl
    have hpresence := honours.probe_eq
    subst hsame
    by_cases hthere : (race.now crowd path).isSome = true
    · exact .inl ⟨hpresence.trans (View.presence_eq_present.2 hthere), hthere⟩
    · have hnone : race.now crowd path = none := by simpa using hthere
      refine .inr ⟨hpresence.trans (View.presence_eq_absent.2 hnone), ?_⟩
      -- What was there at first would still be there.
      by_contra hinitial
      have hgrown := h.grown path (Option.isSome_iff_ne_none.2 hinitial)
      exact hinitial (hgrown.symm.trans hnone)
  | read path length result =>
    have hfront := View.front?_of_file h.offer race.enough
    cases honours with
    | delivered hdelivered =>
      rw [hfront] at hdelivered
      rw [← Option.some.inj hdelivered]
      rfl
    | undelivered detail hnone =>
      rw [hfront] at hnone
      cases hnone
  | write path bytes result =>
    intro hdone
    subst hdone
    cases honours with
    | recorded => simp [View.put_self]

/-- A turn keeps the invariant, and everything that exists. -/
theorem advance [DecidableEq ι] (h : race.Coherent operations crowd) (turn : ι) :
    race.Coherent operations (crowd.advance race.machine turn) ∧
      (race.now crowd).Grows (race.now (crowd.advance race.machine turn)) := by
  rcases Crowd.advance_cases race.machine crowd turn with
    hsame | ⟨exchange, next, shared, hmoves, htakes, hmoved⟩
  · rw [hsame]
    exact ⟨h, fun _ _ => rfl⟩
  rw [hmoved]
  obtain ⟨hwithin, hscope⟩ := hmoves.asks (h.scope turn)
  obtain ⟨hlaw, hhonours⟩ := race.honest.takes htakes hwithin (h.ready hmoves) h.law
  obtain ⟨hgrows, hrequest⟩ := h.honoured hmoves hhonours
  refine ⟨⟨hlaw, fun path hpath => ?_, ?_, ?_, ?_, ?_⟩, hgrows⟩
  · exact (hhonours.elsewhere hpath).trans (h.elsewhere path hpath)
  · rcases hrequest with hkept | hrecorded
    · rcases h.request with hfirst | ⟨hroot, hnone, hfile⟩
      · exact .inl (hkept.trans hfirst)
      · exact .inr ⟨hroot, hnone, hkept.trans hfile⟩
    · exact .inr hrecorded
  · exact (Function.forall_update_iff crowd.runs fun i run => run.Fits ((operations i).program
      race.settings)).2 ⟨(h.fits turn).move hmoves, fun i _ => h.fits i⟩
  · exact (Function.forall_update_iff crowd.runs fun _ run => run.rest.Asks race.settings.Allows).2
      ⟨hscope, fun i _ => h.scope i⟩
  · -- The others learn nothing, but what they know has to be true still.
    refine (Function.forall_update_iff crowd.runs fun _ run => ∀ other ∈ run.past,
      race.Attests (race.view shared.store) other).2 ⟨?_, fun i _ other member =>
        (h.attests i other member).mono hgrows⟩
    refine List.forall_mem_append.2 ⟨fun other member => ?_, List.forall_mem_singleton.2 ?_⟩
    · exact (h.attests turn other member).mono hgrows
    · exact h.attests_move htakes hhonours

/-- A schedule keeps the invariant, and everything that exists. -/
theorem play [DecidableEq ι] (h : race.Coherent operations crowd) (schedule : List ι) :
    race.Coherent operations (crowd.play race.machine schedule) ∧
      (race.now crowd).Grows (race.now (crowd.play race.machine schedule)) := by
  refine Crowd.play_invariant
    (fun later => race.Coherent operations later ∧ (race.now crowd).Grows (race.now later))
    (fun later turn ⟨hlater, hgrows⟩ => ?_) schedule ⟨h, fun _ _ => rfl⟩
  obtain ⟨hnext, hmore⟩ := hlater.advance turn
  exact ⟨hnext, hgrows.trans hmore⟩

/-- Once a classification has found that the firmware accepts a request, and no write has
failed, everything that a run was answered speaks for an enable. -/
theorem favourable (h : race.Coherent operations crowd) {turn : ι}
    (available : race.settings.FoundAvailable (crowd.runs turn).past)
    (unfailing : ∀ path bytes failure,
      .write path bytes (.error failure) ∉ (crowd.runs turn).past) :
    race.settings.Favourable (crowd.runs turn).past := by
  have hattests := h.attests turn
  have hanswered : ∀ part, part ⊆ (crowd.runs turn).past → AnsweredBy race.answers part :=
    fun part within leaf subleaf registers member => hattests _ (within member)
  obtain ⟨earlier, first, later, hpast, hfirst⟩ := available
  obtain ⟨found, seen, hfound, -, hcalls⟩ := Settings.yields_classify_full false hfirst
  have hwithin : first ⊆ (crowd.runs turn).past := by
    rw [hpast]
    exact List.subset_append_of_subset_left _ (List.subset_append_right _ _)
  have hthere : (race.initial race.settings.locations.efiRoot).isSome = true := by
    have hmember : .probe race.settings.locations.efiRoot .present ∈ calls first := by
      rw [hcalls]
      simp [Settings.fullWalk, Settings.approach]
    rcases h.root_attested (hwithin (mem_of_mem_calls hmember)) with ⟨-, hthere⟩ | ⟨habsent, -⟩
    · exact hthere
    · cases habsent
  have hexamined : AnsweredBy race.answers found := by
    intro leaf subleaf registers member
    have hcall : .query leaf subleaf registers ∈ calls found :=
      List.mem_filter.2 ⟨member, rfl⟩
    refine hattests (.query leaf subleaf registers) (hwithin (mem_of_mem_calls ?_))
    rw [hcalls]
    exact List.mem_append_left _ hcall
  refine ⟨fun examination support within hexamination => ?_, fun presence member => ?_,
    fun presence member => ?_, fun path presence member => ?_, fun result member => ?_,
    fun path bytes result member => ?_⟩
  · exact hexamination.result_of_answered (Support.asks_examine _) (hanswered _ within) hfound
      hexamined
  · rcases h.root_attested member with ⟨hpresent, -⟩ | ⟨-, hnone⟩
    · exact hpresent
    · rw [hnone] at hthere
      cases hthere
  · rcases hattests _ member with ⟨hpresent, -⟩ | ⟨-, hnone⟩
    · exact hpresent
    · cases hnone.symm.trans race.offered
  · rcases hattests _ member with ⟨hpresent, -⟩ | ⟨habsent, -⟩
    · exact .inl hpresent
    · exact .inr habsent
  · exact ⟨_, by simp [race.enough], hattests _ member⟩
  · cases result with
    | ok done => rfl
    | error failure => exact absurd member (unfailing path bytes failure)

end Coherent

/-- The race does no harm. Whatever the order of the calls:

* the request is what it was at first, or there was none and now there is none either or
  the one that the offer asks for;
* once there is a request, it stays as it is;
* an operation that tells of a pending request does so when there is one;
* an operation that may write, found that the firmware accepts a request and had no write
  fail ends by telling of a pending request;
* whoever gets a turn again and again comes to an end. -/
theorem benign [DecidableEq ι] (race : Race κ σ) (operations : ι → Operation)
    (schedule : List ι) :
    let request := race.settings.locations.request
    let crowd := (race.crowd operations).play race.machine schedule
    (race.now crowd request = race.initial request ∨ race.initial request = none ∧
      race.now crowd request =
        some (.file (race.record.take 4 ++ (race.record.drop 8).take 4))) ∧
    (∀ later, race.now crowd request ≠ none →
      race.now (crowd.play race.machine later) request = race.now crowd request) ∧
    (∀ i outcome, (crowd.runs i).rest = .done outcome → outcome.TellsPending →
      race.now crowd request ≠ none) ∧
    (∀ i outcome, (crowd.runs i).rest = .done outcome → (operations i).mayWrite = true →
      race.settings.FoundAvailable (crowd.runs i).past →
      (∀ path bytes failure, .write path bytes (.error failure) ∉ (crowd.runs i).past) →
      outcome.TellsPending) ∧
    ∀ (turns : Nat → ι) i, (∀ n, ∃ m, n ≤ m ∧ turns m = i) →
      ∃ count outcome, ((crowd.after race.machine turns count).runs i).rest = .done outcome := by
  intro request crowd
  have hcoherent : race.Coherent operations crowd :=
    ((Coherent.start race operations).play schedule).1
  refine ⟨?_, fun later hthere => ?_, fun i outcome hdone hpending => ?_,
    fun i outcome hdone hmay havailable hunfailing => ?_, fun turns i hfair => ?_⟩
  · rcases hcoherent.request with hsame | ⟨-, hnone, hfile⟩
    · exact .inl hsame
    · exact .inr ⟨hnone, hfile⟩
  · exact (hcoherent.play later).2 request (Option.isSome_iff_ne_none.2 hthere)
  · have hattests := hcoherent.attests i
    refine Option.isSome_iff_ne_none.1 ?_
    rcases Operation.showsRequest ((hcoherent.fits i).done hdone) hpending with
      hfound | ⟨bytes, hwritten⟩
    · rcases hattests _ hfound with ⟨-, hthere⟩ | ⟨habsent, -⟩
      · exact hthere
      · cases habsent
    · exact hattests _ hwritten rfl
  · exact (hcoherent.favourable havailable hunfailing).tellsPending hmay
      ((hcoherent.fits i).done hdone)
  · exact Crowd.exists_done_of_fair race.machine crowd hfair

/-- The stock platform, open to all. -/
def stock : Race Nat Scripted.Entries where
  settings := .stock
  machine := Scripted.stockMachine
  lawful := Scripted.Entries.Lawful .stock
  view := Scripted.Entries.content?
  honest := Scripted.honest .stock
  fixed _ _ _ _ := rfl
  start := Scripted.stockStart
  law := ⟨by unfold Scripted.Entries.Candid; decide, by decide⟩
  record := [7, 0, 0, 0, 0, 0, 0, 0, 128, 0, 0, 0]
  offered := by decide
  enough := by decide

/-- Two enables take turns, so that both of them miss the request before either writes. -/
def duel : Crowd Bool Nat Scripted.Entries Outcome :=
  (stock.crowd fun _ => .enable).play stock.machine (List.replicate 16 [false, true]).flatten

/-- Whether a run has ended with a pending request. -/
def endsPending (run : UnderWay Outcome) : Bool :=
  match run.rest with
  | .done (.status (.ok .rebootRequired)) => true
  | _ => false

/-- Both enables of the duel write, and the request is the one that the offer asks for. -/
theorem benign_duel :
    (∀ i, (duel.runs i).past.any (·.isWrite) = true) ∧
      stock.now duel stock.settings.locations.request =
        some (.file [7, 0, 0, 0, 128, 0, 0, 0]) := by
  obtain ⟨hrequest, -, hpending, -⟩ := benign stock (fun _ => .enable)
    (List.replicate 16 [false, true]).flatten
  have hwrote : ∀ i, (duel.runs i).past.any (·.isWrite) = true := by decide +kernel
  have hended : endsPending (duel.runs true) = true := by decide +kernel
  refine ⟨hwrote, ?_⟩
  have hthere : stock.now duel stock.settings.locations.request ≠ none := by
    unfold endsPending at hended
    split at hended
    · rename_i hdone
      exact hpending true _ hdone rfl
    · cases hended
  rcases hrequest with hsame | ⟨-, hfile⟩
  · have hnone : stock.initial stock.settings.locations.request = none := by decide +kernel
    exact absurd (hsame.trans hnone) hthere
  · exact hfile

end Race

end SgxActivation
