import SgxActivation.CommandLine.Invocation
import SgxActivation.Proofs.Acceptance
import SgxActivation.Proofs.CommandLine.Stopping
import SgxActivation.Proofs.Enabling

/-!
# The gates of an invocation

Three gates stand before the machine: the arguments, the configuration file and the check of the
configuration.

* `Options.Loads` — the configuration that options lead to, where there is one;
* **`Goes`** — an invocation stops at one of the gates, or is an evaluation in print;
* `invoke_gated` — so its exit code and its calls are told by the gates and the report, and the
  way the options are spelled makes no difference.
-/

namespace SgxActivation.CommandLine

open Exchange

variable {κ σ : Type} {load : Path → Except SystemError Bytes} {options : Options}

/-- The configuration that options lead to: the default one, or the one in the file they name. -/
inductive Options.Loads (load : Path → Except SystemError Bytes) (options : Options) :
    Config → Prop
  | default : options.configPath = none → Loads load options {}
  | file {path bytes document config} : options.configPath = some path →
      load path = .ok bytes → String.fromUTF8? bytes.toByteArray = some document →
      Config.ofDocument document = .ok config → Loads load options config

theorem loadConfig_eq_ok_iff {config : Config} :
    loadConfig load options = .ok config ↔ options.Loads load config := by
  unfold loadConfig
  constructor
  · intro h
    split at h
    · next hpath =>
      cases h
      exact .default hpath
    · next path hpath =>
      split at h
      · cases h
      · next bytes hbytes =>
        unfold configIn at h
        split at h
        · cases h
        · next document hdocument =>
          cases hconfig : Config.ofDocument document with
          | error failure => rw [hconfig] at h; cases h
          | ok config =>
            rw [hconfig] at h
            cases h
            exact .file hpath hbytes hdocument hconfig
  · intro h
    cases h with
    | default hpath => rw [hpath]
    | file hpath hbytes hdocument hconfig =>
      rw [hpath]
      simp only [hbytes, configIn, hdocument, hconfig]
      rfl

theorem Options.Loads.unique {config other : Config} (loads : options.Loads load config)
    (again : options.Loads load other) : config = other := by
  have hsame := (loadConfig_eq_ok_iff.2 loads).symm.trans (loadConfig_eq_ok_iff.2 again)
  exact Except.ok.inj hsame

/-- How an invocation goes: it stops at one of the gates without asking the machine for anything,
or it prints the report of an evaluation. -/
inductive Goes (load : Path → Except SystemError Bytes) (arguments : List String) :
    Program Printed → Prop
  | stopped {stop : Stop} : Options.parse arguments = .error stop →
      Goes load arguments (.done stop.printed)
  | refused {options : Options} (refusal : Refusal) : Options.parse arguments = .ok options →
      (∀ config, options.Loads load config → config.validate ≠ .ok ()) →
      Goes load arguments (.done refusal.printed)
  | runs {options : Options} {settings : Settings} : Options.parse arguments = .ok options →
      options.Loads load settings.config → settings.config.validate = .ok () →
      Goes load arguments
        (printReport options.json <$> settings.evaluate options.statusOnly)

/-- Either accepted settings come of the options, or no configuration that is valid. -/
theorem loadSettings_cases (load : Path → Except SystemError Bytes) (options : Options) :
    (∃ settings, loadSettings load options = .ok settings ∧
      options.Loads load settings.config ∧ settings.config.validate = .ok ()) ∨
    ∃ refusal, loadSettings load options = .error refusal ∧
      ∀ config, options.Loads load config → config.validate ≠ .ok () := by
  unfold loadSettings
  cases hconfig : loadConfig load options with
  | error refusal =>
    refine .inr ⟨refusal, rfl, fun config hloads => ?_⟩
    rw [loadConfig_eq_ok_iff.2 hloads] at hconfig
    cases hconfig
  | ok config =>
    show (∃ settings, (Settings.ofConfig config).mapError Refusal.notAccepted = _ ∧ _) ∨ _
    cases hvalid : config.validate with
    | error failure =>
      refine .inr ⟨.notAccepted failure, ?_, fun other hloads => ?_⟩
      · show (Settings.ofConfig config).mapError Refusal.notAccepted = _
        rw [Settings.ofConfig_of_error hvalid]
        rfl
      · rw [hloads.unique (loadConfig_eq_ok_iff.1 hconfig), hvalid]
        nofun
    | ok _ =>
      obtain ⟨settings, hsettings, rfl⟩ := Settings.ofConfig_of_ok hvalid
      exact .inl ⟨settings, by rw [hsettings]; rfl, loadConfig_eq_ok_iff.1 hconfig, hvalid⟩

theorem invoke_goes (load : Path → Except SystemError Bytes) (arguments : List String) :
    Goes load arguments (invoke load arguments) := by
  unfold invoke
  cases hparse : Options.parse arguments with
  | error stop => exact .stopped hparse
  | ok options =>
    rcases loadSettings_cases load options with ⟨settings, hsettings, hloads, hvalid⟩ |
      ⟨refusal, hrefusal, hnone⟩
    · simp only [hsettings]
      exact .runs hparse hloads hvalid
    · simp only [hrefusal]
      exact .refused refusal hparse hnone

/-! ## Exit codes and calls -/

theorem Refusal.exitCode_printed (refusal : Refusal) : refusal.printed.exitCode = 1 := rfl

/-- Only the version counts as success among what ends an invocation. -/
theorem Stop.exitCode_printed (stop : Stop) :
    stop.printed.exitCode = if stop = .version then 0 else 1 := by
  cases stop <;> rfl

theorem exitCode_printReport (json : Bool) (report : Report) :
    (printReport json report).exitCode = report.exitCode := by
  unfold printReport
  split
  · rfl
  · split <;> rfl

/-- There is one exit code for all that is not success. -/
theorem exitCode_eq_zero_or_one (report : Report) : report.exitCode = 0 ∨ report.exitCode = 1 := by
  unfold Report.exitCode
  cases report.status? with
  | none => exact .inr rfl
  | some status =>
    cases h : status.isEnabledOrPending with
    | true => exact .inl (by simp [Status.exitCode, h])
    | false => exact .inr (by simp [Status.exitCode, h])

/-- An evaluation in print runs as the evaluation does. -/
theorem run_printed (settings : Settings) (json statusOnly : Bool) (machine : Machine κ σ)
    (state : Machine.State κ σ) :
    (printReport json <$> settings.evaluate statusOnly).run machine state =
      let run := (settings.evaluate statusOnly).run machine state
      ⟨printReport json run.result, run.trace, run.final⟩ := by
  rw [Program.map_eq, Program.run_andThen]
  simp

namespace Goes

variable {arguments : List String} {program : Program Printed}

theorem exitCode_iff (goes : Goes load arguments program) (machine : Machine κ σ)
    (state : Machine.State κ σ) :
    (program.run machine state).result.exitCode = 0 ↔
      Options.parse arguments = .error .version ∨
      ∃ (options : Options) (config : Config) (settings : Settings),
        Options.parse arguments = .ok options ∧ options.Loads load config ∧
        config.validate = .ok () ∧ settings.config = config ∧
        ((settings.evaluate options.statusOnly).run machine state).result.exitCode = 0 := by
  cases goes with
  | @stopped stop hparse =>
    rw [Program.run_done, Stop.exitCode_printed, hparse]
    by_cases hversion : stop = .version <;> simp [hversion]
  | @refused options refusal hparse hnone =>
    rw [Program.run_done, Refusal.exitCode_printed, hparse]
    refine ⟨nofun, ?_⟩
    rintro (hversion | ⟨other, config, settings, hother, hloads, hvalid, -⟩)
    · cases hversion
    · cases hother
      exact absurd hvalid (hnone config hloads)
  | @runs options settings hparse hloads hvalid =>
    rw [run_printed, exitCode_printReport, hparse]
    constructor
    · exact fun hexit => .inr ⟨options, settings.config, settings, rfl, hloads, hvalid, rfl, hexit⟩
    · rintro (hversion | ⟨other, config, others, hother, hagain, -, rfl, hexit⟩)
      · cases hversion
      · cases hother
        obtain rfl : settings = others := by
          cases settings
          cases others
          congr 1
          exact hloads.unique hagain
        exact hexit

theorem exitCode_eq (goes : Goes load arguments program) (machine : Machine κ σ)
    (state : Machine.State κ σ) :
    (program.run machine state).result.exitCode = 0 ∨
      (program.run machine state).result.exitCode = 1 := by
  cases goes with
  | @stopped stop hparse =>
    rw [Program.run_done, Stop.exitCode_printed]
    split
    · exact .inl rfl
    · exact .inr rfl
  | refused refusal hparse hnone => exact .inr rfl
  | runs hparse hloads hvalid =>
    rw [run_printed, exitCode_printReport]
    exact exitCode_eq_zero_or_one _

/-- The machine is asked for something only behind the gates. -/
theorem passed (goes : Goes load arguments program) {machine : Machine κ σ}
    {state : Machine.State κ σ} (asked : calls (program.run machine state).trace ≠ []) :
    ∃ (options : Options) (config : Config), Options.parse arguments = .ok options ∧
      options.Loads load config ∧ config.validate = .ok () := by
  cases goes with
  | stopped hparse => exact absurd rfl asked
  | refused refusal hparse hnone => exact absurd rfl asked
  | runs hparse hloads hvalid => exact ⟨_, _, hparse, hloads, hvalid⟩

/-- Where only the status is wanted, nothing is read or written. -/
theorem looks (goes : Goes load arguments program) {machine : Machine κ σ}
    {state : Machine.State κ σ} (hparse : Options.parse arguments = .ok options)
    (statusOnly : options.statusOnly = true) :
    ∀ exchange ∈ calls (program.run machine state).trace, exchange.isLook = true := by
  cases goes with
  | stopped hstop => exact fun _ member => absurd member List.not_mem_nil
  | refused refusal hsame hnone => exact fun _ member => absurd member List.not_mem_nil
  | @runs other settings hsame hloads hvalid =>
    rw [hparse] at hsame
    cases hsame
    rw [run_printed, statusOnly]
    obtain ⟨trace, hyields, -, hcalls⟩ :=
      Program.exists_yields_follows machine (settings.evaluate true) state
    rw [← hcalls]
    exact Settings.yields_evaluate_looks hyields

end Goes

/-- An invocation exits with zero exactly if it asks for the version, or if its arguments are
accepted, the configuration that they lead to is there and valid, and so says the report; else it
exits with one. It asks the machine for nothing unless all three gates are passed. Arguments are
accepted exactly if they spell choices of different options, and stop with the help or the version
exactly if they request it behind such choices. All spellings of the same choices, in whatever
order, are the same invocation; if one of them is the status, it only looks. -/
theorem invoke_gated (load : Path → Except SystemError Bytes) (arguments : List String)
    (machine : Machine κ σ) (state : Machine.State κ σ) :
    let run := (invoke load arguments).run machine state
    (run.result.exitCode = 0 ↔
      Options.parse arguments = .error .version ∨
      ∃ (options : Options) (config : Config) (settings : Settings),
        Options.parse arguments = .ok options ∧ options.Loads load config ∧
        config.validate = .ok () ∧ settings.config = config ∧
        ((settings.evaluate options.statusOnly).run machine state).result.exitCode = 0) ∧
    (run.result.exitCode ≠ 0 → run.result.exitCode = 1) ∧
    (calls run.trace ≠ [] → ∃ (options : Options) (config : Config),
      Options.parse arguments = .ok options ∧ options.Loads load config ∧
      config.validate = .ok ()) ∧
    (∀ options, Options.parse arguments = .ok options ↔
      ∃ choices, Spells choices arguments ∧ options.Made choices) ∧
    (∀ (opt : Opt) (stop : Stop), opt.stop? = some stop →
      (Options.parse arguments = .error stop ↔ Requests opt arguments)) ∧
    ∀ choices options, Spells choices arguments → options.Made choices →
      (∀ other arrangement, Spells arrangement other → arrangement.Perm choices →
        Options.parse other = .ok options ∧ invoke load other = invoke load arguments) ∧
      (.switch .status ∈ choices → ∀ exchange ∈ calls run.trace, exchange.isLook = true) := by
  intro run
  have hgoes := invoke_goes load arguments
  refine ⟨hgoes.exitCode_iff machine state, (hgoes.exitCode_eq machine state).resolve_left,
    hgoes.passed, fun options => Options.parse_eq_ok_iff,
    fun opt stop asked => Options.parse_eq_stop_iff asked, fun choices options hspells hmade =>
    ⟨fun other arrangement hother hperm => ?_, fun hstatus => ?_⟩⟩
  · have hsame : Options.parse other = .ok options :=
      Options.parse_eq_ok_iff.2 ⟨arrangement, hother, hmade.perm hperm⟩
    have hparse : Options.parse arguments = .ok options :=
      Options.parse_eq_ok_iff.2 ⟨choices, hspells, hmade⟩
    exact ⟨hsame, by rw [invoke, invoke, hsame, hparse]⟩
  · exact hgoes.looks (Options.parse_eq_ok_iff.2 ⟨choices, hspells, hmade⟩)
      (hmade.status.2 hstatus)

end SgxActivation.CommandLine
