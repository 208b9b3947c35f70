import SgxActivation.Proofs.Examination

/-!
# Classification along its trace

What a classification asks for and what it makes of the answers, whatever
machine gives them. The examination of the processor comes first
(**`Classified`**); only if that leaves the status open does a **walk** over the
firmware's files follow (**`Walk`**), which goes on exactly as long as the
answers let it. `Settings.yields_classify` says that no classification does
anything else.
-/

namespace SgxActivation

variable {β : Type}

open Exchange

/-- A probe that was neither refused nor failed. -/
def Presence.IsClear (presence : Presence) : Prop := presence = .present ∨ presence = .absent

namespace Settings

/-- What the outcome of a probe means to an attempt that asks for existence. -/
def judge (path : Path) (refusal : String) : Presence → Except Failure Bool
  | .present => .ok true
  | .absent => .ok false
  | .denied => .error ⟨.noPrivilege, refusal⟩
  | .failed reason => .error ⟨.unexpected, s!"{path.text}: {reason}"⟩

theorem judge_ok {path : Path} {refusal : String} {presence : Presence} {found : Bool}
    (h : judge path refusal presence = .ok found) :
    presence = if found then .present else .absent := by
  cases presence <;> cases h <;> rfl

/-- A refused or failed probe is neither a presence nor an absence. -/
theorem not_isClear_of_judge {path : Path} {refusal : String} {presence : Presence}
    {failure : Failure} (h : judge path refusal presence = .error failure) :
    ¬ presence.IsClear := by
  rintro (rfl | rfl) <;> cases h

theorem yields_exists? {path : Path} {refusal : String} {trace : List Exchange}
    {result : Except Failure Bool} (h : (exists? path refusal).run.Yields trace result) :
    ∃ presence, calls trace = [.probe path presence] ∧ result = judge path refusal presence := by
  rw [run_exists?] at h
  cases h with
  | @probe _ _ presence rest _ h =>
    cases presence with
    | present =>
      cases h
      exact ⟨.present, rfl, rfl⟩
    | absent =>
      cases h
      exact ⟨.absent, rfl, rfl⟩
    | denied =>
      cases h with
      | note h =>
        cases h
        exact ⟨.denied, rfl, rfl⟩
    | failed reason =>
      cases h with
      | note h =>
        cases h
        exact ⟨.failed reason, rfl, rfl⟩

/-- After a probe for existence, an attempt has failed with it or goes on with
what was found. -/
theorem yields_exists?_bind {path : Path} {refusal : String} {next : Bool → Attempt β}
    {trace : List Exchange} {result : Except Failure β}
    (h : (exists? path refusal >>= next).run.Yields trace result) :
    ∃ presence rest, calls trace = .probe path presence :: calls rest ∧
      ((∃ failure, judge path refusal presence = .error failure ∧ calls rest = [] ∧
        result = .error failure) ∨
      ∃ found, presence = (if found then .present else .absent) ∧
        (next found).run.Yields rest result) := by
  rcases Attempt.yields_bind h with
    ⟨failure, hfailed, rfl⟩ | ⟨first, found, second, hfirst, hnext, rfl⟩
  · obtain ⟨presence, hcalls, hjudge⟩ := yields_exists? hfailed
    exact ⟨presence, [], hcalls, .inl ⟨failure, hjudge.symm, rfl, rfl⟩⟩
  · obtain ⟨presence, hcalls, hjudge⟩ := yields_exists? hfirst
    exact ⟨presence, second, by rw [calls_append, hcalls]; rfl,
      .inr ⟨found, judge_ok hjudge.symm, hnext⟩⟩

/-- What is said when the firmware directory may not be looked at. -/
def bootRefusal (path : Path) : String := s!"no privilege to examine boot environment: {path.text}"

/-- What is said when a variable may not be looked at. -/
def variableRefusal (path : Path) : String := s!"Permission denied: {path.text}"

/-- The probes of a boot through the firmware, up to the variable directory. -/
def approach (settings : Settings) (seen : Presence) : List Exchange :=
  [.probe settings.locations.efiRoot .present, .probe settings.locations.efivarsDir seen]

/-- The probes of a walk that gets to the request. -/
def fullWalk (settings : Settings) (seen presence : Presence) : List Exchange :=
  settings.approach seen ++
    [.probe settings.locations.offer .present, .probe settings.locations.request presence]

/-- The walk over the firmware's files: its calls, and the status or failure at
the place where it ends. -/
inductive Walk (settings : Settings) : List Exchange → Except Failure Status → Prop
  | rootBlocked {presence failure} :
      judge settings.locations.efiRoot (bootRefusal settings.locations.efiRoot) presence =
        .error failure →
      Walk settings [.probe settings.locations.efiRoot presence] (.error failure)
  | legacy (presence : Presence) :
      Walk settings
        [.probe settings.locations.efiRoot .absent, .probe settings.locations.bootEfi presence]
        (.ok (if presence = .absent then .legacyBoot else .disabled))
  | directoryBlocked {presence failure} :
      judge settings.locations.efivarsDir (variableRefusal settings.locations.efivarsDir)
        presence = .error failure →
      Walk settings (settings.approach presence) (.error failure)
  | offerBlocked {seen presence failure} : seen.IsClear →
      judge settings.locations.offer (variableRefusal settings.locations.offer) presence =
        .error failure →
      Walk settings (settings.approach seen ++ [.probe settings.locations.offer presence])
        (.error failure)
  | offerMissing {seen} : seen.IsClear →
      Walk settings (settings.approach seen ++ [.probe settings.locations.offer .absent])
        (.ok .manualEnableRequired)
  | requestBlocked {seen presence failure} : seen.IsClear →
      judge settings.locations.request (variableRefusal settings.locations.request) presence =
        .error failure →
      Walk settings (settings.fullWalk seen presence) (.error failure)
  | requestMissing {seen} : seen.IsClear →
      Walk settings (settings.fullWalk seen .absent) (.ok .interfaceAvailable)
  | requestFound {seen} : seen.IsClear →
      Walk settings (settings.fullWalk seen .present) (.ok .rebootRequired)

/-- What follows from an examination: the calls that are made after it, and the
status or failure. -/
inductive Classified (settings : Settings) :
    Support → List Exchange → Except Failure Status → Prop
  | unsupported {support} : support.supported = false →
      Classified settings support [] (.ok .unsupportedProcessor)
  | enabled {support} : support.supported = true → support.active = true →
      Classified settings support [] (.ok .enabled)
  | walked {walk result} : Walk settings walk result →
      Classified settings ⟨true, false⟩ walk result

variable {settings : Settings} {trace : List Exchange}

theorem yields_classifyLegacy {status : Status}
    (h : settings.classifyLegacy.Yields trace status) :
    ∃ presence, calls trace = [.probe settings.locations.bootEfi presence] ∧
      status = if presence = .absent then .legacyBoot else .disabled := by
  unfold classifyLegacy at h
  obtain ⟨first, presence, second, hfirst, hsecond, rfl⟩ := h.split
  cases hfirst with
  | probe hfirst =>
    cases hfirst
    cases presence with
    | present =>
      cases hsecond
      exact ⟨.present, rfl, rfl⟩
    | absent =>
      cases hsecond
      exact ⟨.absent, rfl, rfl⟩
    | denied =>
      cases hsecond with
      | note hsecond =>
        cases hsecond
        exact ⟨.denied, rfl, rfl⟩
    | failed reason =>
      cases hsecond with
      | note hsecond =>
        cases hsecond
        exact ⟨.failed reason, rfl, rfl⟩

theorem isClear_ite (found : Bool) : (if found then Presence.present else .absent).IsClear := by
  cases found
  · exact .inr rfl
  · exact .inl rfl

theorem yields_classifyVariables {result : Except Failure Status}
    (h : settings.classifyVariables.run.Yields trace result) :
    Walk settings (.probe settings.locations.efiRoot .present :: calls trace) result := by
  unfold classifyVariables at h
  obtain ⟨seen, rest, hcalls, ⟨failure, hblocked, hrest, rfl⟩ | ⟨found, hseen, h⟩⟩ :=
    yields_exists?_bind h
  · rw [hcalls, hrest]
    exact .directoryBlocked hblocked
  have clear : seen.IsClear := hseen ▸ isClear_ite found
  -- A missing variable directory is noted and does not end the walk.
  obtain ⟨rest', hrest, h⟩ := Attempt.yields_noted h
  rw [hcalls, hrest]
  obtain ⟨presence, rest, hcalls, ⟨failure, hblocked, hrest, rfl⟩ | ⟨found, rfl, h⟩⟩ :=
    yields_exists?_bind h
  · rw [hcalls, hrest]
    exact .offerBlocked clear hblocked
  rw [hcalls]
  cases found with
  | false =>
    obtain ⟨rest', hrest, h⟩ := Attempt.yields_log_bind h
    cases h
    rw [hrest]
    exact .offerMissing clear
  | true =>
    obtain ⟨presence, rest, hcalls, ⟨failure, hblocked, hrest, rfl⟩ | ⟨found, rfl, h⟩⟩ :=
      yields_exists?_bind h
    · rw [hcalls, hrest]
      exact .requestBlocked clear hblocked
    rw [hcalls]
    cases found with
    | false =>
      cases h
      exact .requestMissing clear
    | true =>
      cases h
      exact .requestFound clear

/-- Every classification examines the processor and then walks, if at all, as
`Walk` says. -/
theorem yields_classify {result : Except Failure Status}
    (h : settings.classify.run.Yields trace result) :
    ∃ examination support walk, settings.examineProcessor.Yields examination support ∧
      trace = examination ++ walk ∧ Classified settings support (calls walk) result := by
  unfold classify at h
  rcases Attempt.yields_bind h with
    ⟨failure, hfailed, rfl⟩ | ⟨examination, support, walk, hfirst, hwalk, rfl⟩
  · -- An examination cannot fail.
    obtain ⟨support, -, herror⟩ := Attempt.yields_lift hfailed
    cases herror
  obtain ⟨_, hexamination, heq⟩ := Attempt.yields_lift hfirst
  cases heq
  refine ⟨examination, support, walk, hexamination, rfl, ?_⟩
  obtain ⟨supported, active⟩ := support
  cases supported with
  | false =>
    cases hwalk
    exact .unsupported rfl
  | true =>
    cases active with
    | true =>
      cases hwalk
      exact .enabled rfl rfl
    | false =>
      refine .walked ?_
      obtain ⟨presence, rest, hcalls, ⟨failure, hblocked, hrest, rfl⟩ | ⟨found, rfl, hnext⟩⟩ :=
        yields_exists?_bind hwalk
      · rw [hcalls, hrest]
        exact .rootBlocked hblocked
      rw [hcalls]
      cases found with
      | true => exact yields_classifyVariables hnext
      | false =>
        obtain ⟨status, hlegacy, rfl⟩ := Attempt.yields_lift hnext
        obtain ⟨presence, hcalls, rfl⟩ := yields_classifyLegacy hlegacy
        rw [hcalls]
        exact .legacy presence

/-- Where every examination finds the same, a classification goes on from there. -/
theorem Finds.classified {κ σ : Type} {machine : Machine κ σ} {support : Support}
    (finds : settings.Finds machine support) {state last : Machine.State κ σ}
    {result : Except Failure Status} (yields : settings.classify.run.Yields trace result)
    (follows : machine.Follows state trace last) :
    ∃ examination walk, settings.examineProcessor.Yields examination support ∧
      trace = examination ++ walk ∧ Classified settings support (calls walk) result := by
  obtain ⟨examination, found, walk, hexamination, rfl, hclassified⟩ := yields_classify yields
  obtain ⟨middle, hexamined, -⟩ := Machine.follows_append.1 follows
  obtain rfl : found = support := finds _ _ _ _ hexamination hexamined
  exact ⟨examination, walk, hexamination, rfl, hclassified⟩

/-! ## Calls of a classification -/

theorem Walk.looks {walk : List Exchange} {result : Except Failure Status}
    (h : Walk settings walk result) : ∀ exchange ∈ walk, exchange.isLook = true := by
  cases h <;> simp [approach, fullWalk, isLook]

/-- Only a full walk tells whether the request is in place. -/
theorem Walk.full {walk : List Exchange} {found : Bool}
    (h : Walk settings walk (.ok (if found then .rebootRequired else .interfaceAvailable))) :
    ∃ seen, seen.IsClear ∧
      walk = settings.fullWalk seen (if found then .present else .absent) := by
  -- Every other end of a walk has a status of its own, or none.
  generalize hresult : (Except.ok _ : Except Failure Status) = result at h
  cases h with
  | requestMissing hclear =>
    cases found <;> cases hresult
    exact ⟨_, hclear, rfl⟩
  | requestFound hclear =>
    cases found <;> cases hresult
    exact ⟨_, hclear, rfl⟩
  | legacy presence => cases found <;> cases presence <;> cases hresult
  | _ => cases found <;> cases hresult

/-- Where a walk always finds the firmware directory and an offer, it gets to the
request, and what it finds there is the status. -/
theorem Walk.exists_found {walk : List Exchange} {result : Except Failure Status}
    (h : Walk settings walk result)
    (root : ∀ presence, .probe settings.locations.efiRoot presence ∈ walk → presence = .present)
    (directory : ∀ presence, .probe settings.locations.efivarsDir presence ∈ walk →
      presence.IsClear)
    (offer : ∀ presence, .probe settings.locations.offer presence ∈ walk → presence = .present)
    (request : ∀ presence, .probe settings.locations.request presence ∈ walk →
      presence.IsClear) :
    ∃ found : Bool,
      .probe settings.locations.request (if found then .present else .absent) ∈ walk ∧
      result = .ok (if found then .rebootRequired else .interfaceAvailable) := by
  cases h with
  | @rootBlocked presence failure hblocked =>
    have hpresence := root presence List.mem_cons_self
    subst hpresence
    cases hblocked
  | legacy presence => cases root .absent List.mem_cons_self
  | @directoryBlocked presence failure hblocked =>
    exact absurd (directory presence (by simp [approach])) (not_isClear_of_judge hblocked)
  | @offerBlocked seen presence failure hclear hblocked =>
    have hpresence := offer presence (by simp)
    subst hpresence
    cases hblocked
  | offerMissing hclear => cases offer .absent (by simp)
  | @requestBlocked seen presence failure hclear hblocked =>
    exact absurd (request presence (by simp [fullWalk])) (not_isClear_of_judge hblocked)
  | requestMissing hclear => exact ⟨false, by simp [fullWalk], rfl⟩
  | requestFound hclear => exact ⟨true, by simp [fullWalk], rfl⟩

theorem Walk.result_of_offered {walk : List Exchange} {result : Except Failure Status}
    (h : Walk settings walk result) (found : Bool)
    (root : ∀ presence, .probe settings.locations.efiRoot presence ∈ walk → presence = .present)
    (directory : ∀ presence, .probe settings.locations.efivarsDir presence ∈ walk →
      presence.IsClear)
    (offer : ∀ presence, .probe settings.locations.offer presence ∈ walk → presence = .present)
    (request : ∀ presence, .probe settings.locations.request presence ∈ walk →
      presence = if found then .present else .absent) :
    result = .ok (if found then .rebootRequired else .interfaceAvailable) := by
  have hclear : ∀ presence, .probe settings.locations.request presence ∈ walk →
      presence.IsClear := fun presence member => request presence member ▸ isClear_ite found
  obtain ⟨seen, member, rfl⟩ := h.exists_found root directory offer hclear
  have hseen := request _ member
  cases seen with
  | true =>
    cases found with
    | true => rfl
    | false => cases hseen
  | false =>
    cases found with
    | true => cases hseen
    | false => rfl

theorem yields_examineProcessor_looks {support : Support}
    (h : settings.examineProcessor.Yields trace support) :
    ∀ exchange ∈ calls trace, exchange.isLook = true :=
  fun exchange member =>
    isLook_of_isQuery (h.queries (Support.asks_examine _) exchange member)

/-- A classification only looks. -/
theorem yields_classify_looks {result : Except Failure Status}
    (h : settings.classify.run.Yields trace result) :
    ∀ exchange ∈ calls trace, exchange.isLook = true := by
  obtain ⟨examination, support, walk, hexamination, rfl, hclassified⟩ := yields_classify h
  rw [calls_append]
  generalize calls walk = walked at hclassified
  refine List.forall_mem_append.2 ⟨yields_examineProcessor_looks hexamination, ?_⟩
  cases hclassified with
  | unsupported | enabled => simp
  | walked hwalk => exact hwalk.looks

/-- Whether the request is in place is found out by a full walk, after an
examination that found an inactive processor, and not otherwise. -/
theorem yields_classify_full (found : Bool)
    (h : settings.classify.run.Yields trace
      (.ok (if found then .rebootRequired else .interfaceAvailable))) :
    ∃ examination seen, settings.examineProcessor.Yields examination ⟨true, false⟩ ∧
      seen.IsClear ∧ calls trace =
        calls examination ++ settings.fullWalk seen (if found then .present else .absent) := by
  obtain ⟨examination, support, walk, hexamination, rfl, hclassified⟩ := yields_classify h
  rw [calls_append]
  generalize calls walk = walked at hclassified
  generalize hresult : (Except.ok _ : Except Failure Status) = result at hclassified
  cases hclassified with
  | unsupported => cases found <;> cases hresult
  | enabled => cases found <;> cases hresult
  | walked hwalk =>
    subst hresult
    obtain ⟨seen, hclear, rfl⟩ := hwalk.full
    exact ⟨examination, seen, hexamination, hclear, rfl⟩

end Settings

end SgxActivation
