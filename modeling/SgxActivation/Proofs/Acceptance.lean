import SgxActivation.Proofs.Overlay
import SgxActivation.Proofs.Scope
import SgxActivation.Proofs.Sessions

/-!
# Acceptance of configurations

A configuration is refused for the first of its fields that is wrong, before any machine is
asked, and one that is accepted fixes what the machine can be asked about.

* **`Config.Field.Wrong`** — what can be wrong with a field, and what is said of it;
  `defect?_eq` says that the fields are gone through in the order of declaration;
* `validate_eq_ok_iff`, `validate_eq_error_iff` — when a configuration is accepted, and what it
  is refused for;
* **`Operation.under`** — an operation under a configuration that has yet to be accepted;
* `variableFile_text` — how the path of a firmware variable is made;
* `Config.gates_store` — a refused configuration asks nothing of any machine, and every call that
  a session makes to the store goes to one of the five paths of an accepted one.
-/

namespace SgxActivation

variable {κ σ : Type}

/-! ## Refusals -/

namespace Config

/-- A field as it is named in full: its section and its name there. -/
def Field.fullName (field : Field) : String := field.home ++ "." ++ field.key

/-- What is wrong with the content of a field, in the words that are said of it. An empty path is
told from a relative one. -/
inductive Field.Wrong (config : Config) : Field → String → Prop
  | empty {field : PathField} : (config.path field).text = "" →
      Wrong config (.path field) ((Field.path field).fullName ++ " is empty")
  | relative {field : PathField} : (config.path field).text ≠ "" →
      (config.path field).text.toList.head? ≠ some '/' →
      Wrong config (.path field)
        ((Field.path field).fullName ++ " must be an absolute path, got " ++
          (config.path field).text)
  | zero : config.subleafCap = 0 →
      Wrong config .cap (Field.cap.fullName ++ " must be greater than zero")

/-- The defect of a field, if it has one. -/
def Field.defect? (config : Config) : Field → Option Defect
  | .path field => config.pathDefect? field
  | .cap => if config.subleafCap == 0 then some .zeroCap else none

variable {config : Config}

/-- The fields are gone through in the order of declaration. -/
theorem defect?_eq (config : Config) : config.defect? = Field.all.findSome? (·.defect? config) := by
  unfold defect? Field.all
  simp only [List.findSome?_cons, List.findSome?_nil, Field.defect?]
  generalize config.pathDefect? .efiRoot = root
  generalize config.pathDefect? .efivarsDir = directory
  generalize config.pathDefect? .bootEfi = partition'
  generalize (if config.subleafCap == 0 then some Defect.zeroCap else none) = cap
  cases root <;> cases directory <;> cases partition' <;> cases cap <;> rfl

section

variable {field : PathField}

theorem isEmpty_path_iff : (config.path field).isEmpty = true ↔ (config.path field).text = "" := by
  simp [Path.isEmpty]

theorem isAbsolute_path_iff : (config.path field).isAbsolute = true ↔
    (config.path field).text.toList.head? = some '/' := by
  simp [Path.isAbsolute]

theorem pathDefect?_eq_some_iff {defect : Defect} :
    config.pathDefect? field = some defect ↔
      (config.path field).text = "" ∧ defect = .emptyPath field ∨
      (config.path field).text ≠ "" ∧ (config.path field).text.toList.head? ≠ some '/' ∧
        defect = .relativePath field (config.path field) := by
  rw [Ne, Ne, ← isEmpty_path_iff, ← isAbsolute_path_iff]
  unfold pathDefect?
  cases (config.path field).isEmpty <;> cases (config.path field).isAbsolute <;> simp [eq_comm]

theorem pathDefect?_eq_none_iff :
    config.pathDefect? field = none ↔
      (config.path field).text ≠ "" ∧ (config.path field).text.toList.head? = some '/' := by
  rw [Ne, ← isEmpty_path_iff, ← isAbsolute_path_iff]
  unfold pathDefect?
  cases (config.path field).isEmpty <;> cases (config.path field).isAbsolute <;> simp

end

theorem Defect.exists_failure (defect : Defect) :
    ∃ words, defect.failure = ⟨.invalidParameter, words⟩ := by
  cases defect <;> exact ⟨_, rfl⟩

/-- A field is wrong exactly if it has a defect, of which the failure says the same. -/
theorem Field.wrong_iff {field : Field} {words : String} :
    field.Wrong config words ↔
      ∃ defect, field.defect? config = some defect ∧
        defect.failure = ⟨.invalidParameter, words⟩ := by
  constructor
  · intro h
    cases h with
    | @empty field hempty =>
      refine ⟨.emptyPath field, pathDefect?_eq_some_iff.2 (.inl ⟨hempty, rfl⟩), ?_⟩
      cases field <;> rfl
    | @relative field hempty hslash =>
      refine ⟨_, pathDefect?_eq_some_iff.2 (.inr ⟨hempty, hslash, rfl⟩), ?_⟩
      cases field <;> rfl
    | zero hzero => exact ⟨.zeroCap, by simp [Field.defect?, hzero], rfl⟩
  · rintro ⟨defect, hdefect, hwords⟩
    cases field with
    | path field =>
      rcases pathDefect?_eq_some_iff.1 hdefect with ⟨hempty, rfl⟩ | ⟨hempty, hslash, rfl⟩
      · cases hwords
        have h : (Field.path field).Wrong config _ := .empty hempty
        cases field <;> exact h
      · cases hwords
        have h : (Field.path field).Wrong config _ := .relative hempty hslash
        cases field <;> exact h
    | cap =>
      simp only [Field.defect?, beq_iff_eq, Option.ite_none_right_eq_some] at hdefect
      obtain ⟨hzero, hcap⟩ := hdefect
      cases hcap
      cases hwords
      exact .zero hzero

theorem validate_eq_error_iff {failure : Failure} :
    config.validate = .error failure ↔
      ∃ earlier field later words, Field.all = earlier ++ field :: later ∧
        (∀ other ∈ earlier, ∀ words, ¬ other.Wrong config words) ∧
        field.Wrong config words ∧ failure = ⟨.invalidParameter, words⟩ := by
  have hdefect : config.validate = .error failure ↔
      ∃ defect, config.defect? = some defect ∧ defect.failure = failure := by
    unfold validate
    cases config.defect? <;> simp
  have hright : ∀ field : Field,
      field.defect? config = none ↔ ∀ words, ¬ field.Wrong config words := by
    intro field
    simp only [Field.wrong_iff]
    cases hfield : field.defect? config with
    | none => simp
    | some defect =>
      obtain ⟨words, hwords⟩ := defect.exists_failure
      simp [hwords]
  rw [hdefect, defect?_eq]
  simp only [List.findSome?_eq_some_iff, hright]
  constructor
  · rintro ⟨defect, ⟨earlier, field, later, hall, hfound, hearlier⟩, rfl⟩
    obtain ⟨words, hwords⟩ := defect.exists_failure
    exact ⟨earlier, field, later, words, hall, hearlier, Field.wrong_iff.2 ⟨defect, hfound, hwords⟩,
      hwords⟩
  · rintro ⟨earlier, field, later, words, hall, hearlier, hwrong, rfl⟩
    obtain ⟨defect, hfound, hwords⟩ := Field.wrong_iff.1 hwrong
    exact ⟨defect, ⟨earlier, field, later, hall, hfound, hearlier⟩, hwords⟩

theorem validate_eq_ok_iff :
    config.validate = .ok () ↔
      (∀ field, (config.path field).text ≠ "" ∧
        (config.path field).text.toList.head? = some '/') ∧ config.subleafCap ≠ 0 := by
  have hdefect : config.validate = .ok () ↔ ∀ field ∈ Field.all, field.defect? config = none := by
    rw [← List.findSome?_eq_none_iff, ← defect?_eq]
    unfold validate
    cases config.defect? <;> simp
  rw [hdefect]
  constructor
  · intro hnone
    refine ⟨fun field => pathDefect?_eq_none_iff.1 ?_, fun hzero => ?_⟩
    · exact hnone (.path field) (by cases field <;> decide)
    · have hcap := hnone .cap (by decide)
      simp [Field.defect?, hzero] at hcap
  · rintro ⟨hpaths, hcap⟩ field -
    cases field with
    | path field => exact pathDefect?_eq_none_iff.2 (hpaths field)
    | cap => simp [Field.defect?, hcap]

end Config

/-! ## Operations under a configuration -/

namespace Settings

theorem ofConfig_of_error {config : Config} {failure : Failure}
    (h : config.validate = .error failure) : ofConfig config = .error failure := by
  unfold Config.validate at h
  unfold ofConfig
  split
  · rename_i defect hdefect
    rw [hdefect] at h
    cases h
    rfl
  · rename_i hnone
    rw [hnone] at h
    cases h

theorem ofConfig_of_ok {config : Config} (h : config.validate = .ok ()) :
    ∃ settings, ofConfig config = .ok settings ∧ settings.config = config := by
  unfold Config.validate at h
  unfold ofConfig
  split
  · rename_i defect hdefect
    rw [hdefect] at h
    cases h
  · rename_i hnone
    exact ⟨⟨config, hnone⟩, rfl, rfl⟩

end Settings

/-- An operation under a configuration that has yet to be accepted. -/
def Operation.under (config : Config) (operation : Operation) : Attempt Outcome := do
  let settings ← Settings.ofConfig config
  operation.program settings

theorem Operation.run_under_of_error {config : Config} {failure : Failure}
    (h : Settings.ofConfig config = .error failure) (operation : Operation) :
    (operation.under config).run = .done (.error failure) := by
  unfold under
  rw [h, Attempt.run_bind]
  rfl

/-! ## Paths of an accepted configuration -/

/-- The path that a call goes to, if it goes to the store. -/
def Exchange.path? : Exchange → Option Path
  | .probe path _ | .read path _ _ | .write path _ _ => some path
  | .query .. | .event _ => none

namespace Settings

variable {settings : Settings}

theorem mem_paths_of_within {exchange : Exchange} (within : exchange.Within settings.Allows)
    {path : Path} (h : exchange.path? = some path) : path ∈ settings.paths := by
  cases exchange with
  | probe other presence =>
    cases h
    exact within
  | read other length result =>
    cases h
    exact within.1 ▸ (by simp [paths])
  | write other bytes result =>
    cases h
    exact within ▸ (by simp [paths])
  | query | event => cases h

theorem isAbsolute_of_mem_paths {path : Path} (h : path ∈ settings.paths) :
    path.isAbsolute = true := by
  simp only [paths, List.mem_cons, List.not_mem_nil, or_false] at h
  rcases h with rfl | rfl | rfl | rfl | rfl
  · exact settings.isAbsolute_path .efiRoot
  · exact settings.isAbsolute_path .efivarsDir
  · exact settings.isAbsolute_path .bootEfi
  · exact settings.isAbsolute_offer
  · exact settings.isAbsolute_request

/-- Every call that a session makes to the store goes to one of the five paths. -/
theorem mem_paths_of_callsMade {machine : Machine κ σ} {steps : List (Session.Step σ)}
    {state : Machine.State κ σ} {exchange : Exchange}
    (made : exchange ∈ Session.callsMade (Session.run settings machine steps state).1)
    {path : Path} (h : exchange.path? = some path) : path ∈ settings.paths := by
  obtain ⟨operation, performance, hperformed, hcall⟩ := Session.mem_callsMade made
  obtain ⟨before, rfl⟩ := Session.exists_performed hperformed
  obtain ⟨trace, hyields, -, hcalls⟩ :=
    Session.exists_yields_perform settings machine operation before
  rw [← hcalls] at hcall
  have hwithin := hyields.within (Operation.asks_allowed settings operation) exchange
    (List.mem_filter.1 hcall).1
  exact mem_paths_of_within hwithin h

/-- The path of a firmware variable is the text of the directory and the name, with a slash in
between unless the directory ends in one. -/
theorem variableFile_text (settings : Settings) {name : String}
    (plain : Filesystem.Route.Plain name) :
    (settings.locations.variableFile name).text =
      settings.locations.efivarsDir.text ++
        (if settings.locations.efivarsDir.text.toList.getLast? = some '/' then "" else "/") ++
          name := by
  have hempty : settings.locations.efivarsDir.isEmpty = false :=
    Path.isEmpty_of_isAbsolute (settings.isAbsolute_path .efivarsDir)
  unfold Locations.variableFile Path.join Path.endsOpen
  rw [if_neg (by simp [plain.start]), hempty, Bool.false_or]
  by_cases hslash : settings.locations.efivarsDir.text.toList.getLast? = some '/'
  · simp [hslash]
  · simp [hslash]

theorem variableFile_ne_efivarsDir (settings : Settings) {name : String}
    (plain : Filesystem.Route.Plain name) (named : name ≠ "") :
    settings.locations.variableFile name ≠ settings.locations.efivarsDir := by
  intro heq
  have htext := congrArg (fun path : Path => path.text.length) heq
  simp only [settings.variableFile_text plain, String.length_append] at htext
  have hname : name.length ≠ 0 := by simpa using named
  omega

end Settings

/-- A configuration is accepted exactly if each path is absolute, and so not empty, and the cap is
not zero. Otherwise it is refused for the first field that is wrong, in the order of declaration,
and no operation under it asks a machine for anything. Under an accepted configuration, every
call that a session makes to the store goes to one of five absolute paths: the three that are
configured, and those of the two firmware variables, which differ from each other and from their
directory. -/
theorem Config.gates_store (config : Config) (machine : Machine κ σ)
    (steps : List (Session.Step σ)) (state : Machine.State κ σ) :
    let locations := config.locations
    (config.validate = .ok () ↔
      (∀ field, (config.path field).text ≠ "" ∧
        (config.path field).text.toList.head? = some '/') ∧ config.subleafCap ≠ 0) ∧
    (∀ failure, config.validate = .error failure ↔
      ∃ earlier field later words, Field.all = earlier ++ field :: later ∧
        (∀ other ∈ earlier, ∀ words, ¬ other.Wrong config words) ∧
        field.Wrong config words ∧ failure = ⟨.invalidParameter, words⟩) ∧
    (∀ failure, config.validate = .error failure →
      Settings.ofConfig config = .error failure ∧
      ∀ operation : Operation,
        (operation.under config).run.run machine state = ⟨.error failure, [], state⟩) ∧
    (config.validate = .ok () →
      (∃ settings, Settings.ofConfig config = .ok settings ∧ settings.config = config ∧
        ∀ exchange ∈ Session.callsMade (Session.run settings machine steps state).1,
          ∀ path, exchange.path? = some path → path.isAbsolute = true ∧
            path ∈ [locations.efiRoot, locations.efivarsDir, locations.bootEfi, locations.offer,
              locations.request]) ∧
      locations.offer ≠ locations.request ∧ locations.offer ≠ locations.efivarsDir ∧
      locations.request ≠ locations.efivarsDir ∧
      ∀ name ∈ [Locations.offerVariable, Locations.requestVariable],
        (locations.variableFile name).text = locations.efivarsDir.text ++
          (if locations.efivarsDir.text.toList.getLast? = some '/' then "" else "/") ++ name) := by
  intro locations
  refine ⟨validate_eq_ok_iff, fun failure => validate_eq_error_iff, fun failure hrefused => ?_,
    fun haccepted => ?_⟩
  · have hfailed := Settings.ofConfig_of_error hrefused
    refine ⟨hfailed, fun operation => ?_⟩
    rw [Operation.run_under_of_error hfailed, Program.run_done]
  · obtain ⟨settings, hsettings, rfl⟩ := Settings.ofConfig_of_ok haccepted
    refine ⟨⟨settings, hsettings, rfl, fun exchange made path hpath => ?_⟩,
      settings.offer_ne_request,
      settings.variableFile_ne_efivarsDir Filesystem.Route.plain_offerVariable (by decide),
      settings.variableFile_ne_efivarsDir Filesystem.Route.plain_requestVariable (by decide),
      fun name member => ?_⟩
    · have hmember := Settings.mem_paths_of_callsMade made hpath
      exact ⟨Settings.isAbsolute_of_mem_paths hmember, hmember⟩
    · simp only [List.mem_cons, List.not_mem_nil, or_false] at member
      rcases member with rfl | rfl
      · exact settings.variableFile_text Filesystem.Route.plain_offerVariable
      · exact settings.variableFile_text Filesystem.Route.plain_requestVariable

end SgxActivation
