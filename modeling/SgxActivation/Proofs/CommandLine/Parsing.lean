import Mathlib.Tactic.SplitIfs
import SgxActivation.Proofs.CommandLine.Spelling

/-!
# Accepted arguments

Which arguments lead to a run, and with which options.

* `Reading.argument_ok`, `Reading.awaited_ok` — what an accepted argument can be where an option
  or a value comes next;
* **`Reading.Accepts.exists_spells`** — arguments that can be read to their end spell choices;
* **`Options.Made`** — what options are when choices of different options make them;
* **`Options.parse_eq_ok_iff`** — arguments are accepted exactly if they spell such choices.
-/

namespace SgxActivation.CommandLine

namespace Reading

variable {reading : Reading} {switches : List Switch} {letters : List Char}

/-! ## Single options -/

theorem advance_bind_ok {choices : List Choice} {next : Reading → Except Stop Reading}
    {last : Reading} (h : reading.advance choices >>= next = .ok last) :
    ∃ options, next (recorded options) = .ok last := by
  rw [advance_bind] at h
  cases htotal : reading.total choices with
  | error stop => rw [htotal] at h; cases h
  | ok options =>
    rw [htotal] at h
    exact ⟨options, h⟩

/-- The options that end an invocation are not accepted. -/
theorem switch_ok {opt : Opt} {last : Reading} (h : reading.Open)
    (hread : reading.switch opt = .ok last) :
    (∃ switch : Switch, switch.opt = opt) ∧ last.Open := by
  rw [switch_begins h] at hread
  obtain ⟨options, hread⟩ := advance_bind_ok hread
  replace hread : (options.set opt >>= fun options => pure (recorded options)) = .ok last := hread
  cases hset : options.set opt with
  | error stop => rw [hset] at hread; cases hread
  | ok after =>
    rw [hset] at hread
    cases hread
    refine ⟨?_, open_recorded after⟩
    cases opt with
    | status => exact ⟨.status, rfl⟩
    | verbose => exact ⟨.verbose, rfl⟩
    | json => exact ⟨.json, rfl⟩
    | config | help | version => cases hset

/-- An empty value is not accepted. -/
theorem nonempty_of_setConfig {options last : Options} {value : String}
    (h : options.setConfig value = .ok last) : value ≠ "" := by
  rintro rfl
  unfold Options.setConfig at h
  split at h <;> cases h

/-- The value of `config` is recorded at once where it is attached, and else awaited. -/
theorem config_ok {attached : Option String} {last : Reading} (h : reading.Open)
    (hread : reading.config attached = .ok last) :
    (∃ value, attached = some value ∧ value ≠ "" ∧ last.Open) ∨
      attached = none ∧ last.pending = .valueAwaited ∧ last.ended = false := by
  rw [config_begins h] at hread
  obtain ⟨options, hread⟩ := advance_bind_ok hread
  cases attached with
  | none =>
    cases hread
    exact .inr ⟨rfl, rfl, rfl⟩
  | some value =>
    replace hread : (options.setConfig value >>= fun options => pure (recorded options)) =
      .ok last := hread
    cases hset : options.setConfig value with
    | error stop => rw [hset] at hread; cases hread
    | ok after =>
      rw [hset] at hread
      cases hread
      exact .inl ⟨value, rfl, nonempty_of_setConfig hset, open_recorded after⟩

/-! ## Single arguments -/

theorem letter_of_ofLetter? {c : Char} {opt : Opt} (h : Opt.ofLetter? c = some opt) :
    opt.letter? = some c := by
  simpa using List.find?_some h

/-- A cluster is of switches, and `config` may end it, with or without its value. -/
theorem cluster_ok {text : List Char} {last : Reading} (h : reading.Open)
    (hread : cluster text reading = .ok last) :
    (∃ switches, Letters switches text ∧ last.Open) ∨
      ∃ switches letters rest, text = letters ++ 'c' :: rest ∧ Letters switches letters ∧
        ∃ before : Reading, before.Open ∧ before.config (attachedTo rest) = .ok last := by
  induction text generalizing reading with
  | nil =>
    cases hread
    exact .inl ⟨[], .nil, h⟩
  | cons c rest ih =>
    rw [cluster] at hread
    split at hread
    · cases hread
    · next hopt =>
      have hletter := letter_of_ofLetter? hopt
      obtain rfl : 'c' = c := Option.some.inj hletter
      exact .inr ⟨[], [], rest, rfl, .nil, reading, h, hread⟩
    · next opt _ hopt =>
      cases hswitch : reading.switch opt with
      | error stop => rw [hswitch] at hread; cases hread
      | ok behind =>
        obtain ⟨⟨switch, rfl⟩, hopen⟩ := switch_ok h hswitch
        have hletter := letter_of_ofLetter? hopt
        rw [hswitch] at hread
        rcases ih hopen hread with ⟨switches, hletters, hlast⟩ |
          ⟨switches, letters, tail, rfl, hletters, hconfig⟩
        · exact .inl ⟨switch :: switches, .cons hletter hletters, hlast⟩
        · exact .inr ⟨switch :: switches, c :: letters, tail, rfl, .cons hletter hletters, hconfig⟩

/-- A text up to an equals sign that is the name of an option begins with it. -/
theorem named_of_ofName? {text : List Char} {opt : Opt}
    (h : Opt.ofName? (String.ofList (text.takeWhile (· != '='))) = some opt) :
    String.ofList text = opt.name ++ String.ofList (text.dropWhile (· != '=')) := by
  have hname : opt.name = String.ofList (text.takeWhile (· != '=')) := by
    simpa using List.find?_some h
  rw [hname, ← String.ofList_append, List.takeWhile_append_dropWhile]

theorem equals_of_dropWhile {text value : List Char} {c : Char}
    (h : text.dropWhile (· != '=') = c :: value) : c = '=' := by
  have hfirst := List.head?_dropWhile_not (· != '=') text
  rw [h] at hfirst
  simpa using hfirst

/-- Behind two dashes stands the name of a switch, or of `config` with or without its value. -/
theorem long_ok {text : List Char} {last : Reading} (h : reading.Open)
    (hread : reading.long text = .ok last) :
    (∃ switch : Switch, String.ofList text = switch.opt.name ∧ last.Open) ∨
      ∃ rest, String.ofList text = "config" ++ String.ofList rest ∧
        rest.head?.all (· == '=') ∧ reading.config (attachedTo rest) = .ok last := by
  have hnamed {opt : Opt}
      (hopt : Opt.ofName? (String.ofList (text.takeWhile (· != '='))) = some opt) :=
    named_of_ofName? hopt
  cases hrest : text.dropWhile (· != '=') with
  | nil =>
    simp only [long, hrest] at hread hnamed
    split at hread
    · cases hread
    · next hopt => exact .inr ⟨[], hnamed hopt, rfl, hread⟩
    · next hvalue => cases hvalue
    · next hopt _ =>
      obtain ⟨⟨switch, rfl⟩, hopen⟩ := switch_ok h hread
      exact .inl ⟨switch, by rw [hnamed hopt, String.ofList_nil, String.append_empty], hopen⟩
  | cons c value =>
    obtain rfl := equals_of_dropWhile hrest
    simp only [long, hrest] at hread hnamed
    split at hread
    · cases hread
    · next hopt => exact .inr ⟨'=' :: value, hnamed hopt, rfl, hread⟩
    · cases hread
    · next hvalue => cases hvalue

/-- An argument whose head names `config` is a piece if it also gives the value. -/
theorem head_ok {head : String} {rest : List Char} {before last : Reading}
    (spelled : Head switches head)
    (attached : rest.head?.all (· == '=') ∨
      ∃ letters, Letters switches letters ∧ head = "-" ++ String.ofList letters ++ "c")
    (h : before.Open) (hread : before.config (attachedTo rest) = .ok last) :
    (∃ front, Piece front [head ++ String.ofList rest] ∧ last.Open) ∨
      rest = [] ∧ last.pending = .valueAwaited ∧ last.ended = false := by
  cases rest with
  | nil =>
    rcases config_ok h hread with ⟨_, hnone, -⟩ | ⟨-, hawaits⟩
    · cases hnone
    · exact .inr ⟨rfl, hawaits⟩
  | cons c value =>
    left
    by_cases hequals : c = '='
    · subst hequals
      rcases config_ok h hread with ⟨_, hvalue, hnonempty, hopen⟩ | ⟨hnone, -⟩
      · cases hvalue
        have htext : "=" ++ String.ofList value = String.ofList ('=' :: value) := by
          rw [String.ofList_cons]
          rfl
        have hpiece := Piece.attached spelled hnonempty
        rw [String.append_assoc, htext] at hpiece
        exact ⟨_, hpiece, hopen⟩
      · cases hnone
    · obtain ⟨letters, hletters, rfl⟩ := attached.resolve_left (by simpa using hequals)
      rw [attachedTo_direct hequals] at hread
      rcases config_ok h hread with ⟨_, hvalue, hnonempty, hopen⟩ | ⟨hnone, -⟩
      · cases hvalue
        exact ⟨_, Piece.direct hletters hnonempty (by simpa using hequals), hopen⟩
      · cases hnone

/-- Where an option may come next, an accepted argument ends the options, or is a piece, or is one
once it is given the value of `config`. -/
theorem argument_ok {argument : String} {last : Reading} (h : reading.Open)
    (hread : reading.argument argument = .ok last) :
    argument = "--" ∧ last.ended = true ∧ last.pending ≠ .valueAwaited ∨
      (∃ front, Piece front [argument] ∧ last.Open) ∨
      ((∃ switches, Head switches argument) ∧ last.pending = .valueAwaited ∧
        last.ended = false) := by
  have hfree := h.free
  have htext := String.ofList_toList (s := argument)
  rw [Reading.argument, h.goesOn, if_neg Bool.false_ne_true] at hread
  split at hread
  · next hdashes =>
    cases hread
    rw [hdashes] at htext
    exact .inl ⟨htext.symm, rfl, hfree⟩
  · next rest _ hlong =>
    rw [hlong] at htext
    have hlonger : "--" ++ String.ofList rest = argument := by
      rw [← htext, String.ofList_cons, String.ofList_cons, ← String.append_assoc]
      rfl
    rcases long_ok h hread with ⟨switch, hname, hopen⟩ | ⟨value, hname, hattached, hconfig⟩
    · rw [← hlonger, hname]
      exact .inr (.inl ⟨_, .name switch, hopen⟩)
    · have hhead : "--config" ++ String.ofList value = argument := by
        rw [← hlonger, hname, ← String.append_assoc]
        rfl
      rw [← hhead]
      rcases head_ok .name (.inl hattached) h hconfig with hpiece | ⟨rfl, hawaits⟩
      · exact .inr (.inl hpiece)
      · rw [String.ofList_nil, String.append_empty]
        exact .inr (.inr ⟨⟨[], .name⟩, hawaits⟩)
  · next c rest _ _ hcluster =>
    rw [hcluster] at htext
    have hlonger : "-" ++ String.ofList (c :: rest) = argument := by
      rw [← htext, String.ofList_cons (c := '-')]
      rfl
    rw [← hlonger]
    rcases cluster_ok h hread with ⟨switches, hletters, hopen⟩ |
      ⟨switches, letters, value, hvalue, hletters, before, hbefore, hconfig⟩
    · exact .inr (.inl ⟨_, .letters hletters (List.cons_ne_nil c rest), hopen⟩)
    · have hhead : "-" ++ String.ofList letters ++ "c" ++ String.ofList value =
          "-" ++ String.ofList (c :: rest) := by
        rw [hvalue, String.ofList_append, String.ofList_cons, ← String.append_assoc,
          ← String.append_assoc]
        rfl
      rw [← hhead]
      rcases head_ok (.letter hletters) (.inr ⟨letters, hletters, rfl⟩) hbefore hconfig with
        hpiece | ⟨rfl, hawaits⟩
      · exact .inr (.inl hpiece)
      · rw [String.ofList_nil, String.append_empty]
        exact .inr (.inr ⟨⟨switches, .letter hletters⟩, hawaits⟩)
  · simp [Reading.plain, hfree] at hread

theorem switch_awaited (awaits : reading.pending = .valueAwaited) (opt : Opt) :
    reading.switch opt = .error (.misuse (.valueMissing .config)) := by
  rw [Reading.switch, settle, awaits]
  rfl

theorem config_awaited (awaits : reading.pending = .valueAwaited) (attached : Option String) :
    reading.config attached = .error (.misuse (.valueMissing .config)) := by
  rw [Reading.config, settle, awaits]
  rfl

/-- Where the value of `config` is awaited, no option comes next. -/
theorem awaited_ok {argument : String} {last : Reading} (awaits : reading.pending = .valueAwaited)
    (goesOn : reading.ended = false) (hread : reading.argument argument = .ok last) :
    argument = "--" ∧ last.ended = true ∧ last.pending = .valueAwaited ∨
      (argument.toList.head? = some '-' → argument = "-") ∧
        last = { reading with pending := .value argument } := by
  have hswitch (opt : Opt) : reading.switch opt ≠ .ok last := by
    rw [switch_awaited awaits]
    rintro ⟨⟩
  have hconfig (attached : Option String) : reading.config attached ≠ .ok last := by
    rw [config_awaited awaits]
    rintro ⟨⟩
  have htext := String.ofList_toList (s := argument)
  rw [Reading.argument, goesOn, if_neg Bool.false_ne_true] at hread
  split at hread
  · next hdashes =>
    cases hread
    rw [hdashes] at htext
    exact .inl ⟨htext.symm, rfl, awaits⟩
  · unfold long at hread
    dsimp only at hread
    split at hread
    · cases hread
    · exact absurd hread (hconfig _)
    · cases hread
    · exact absurd hread (hswitch _)
  · rw [cluster] at hread
    split at hread
    · cases hread
    · exact absurd hread (hconfig _)
    · next opt _ _ =>
      cases hbehind : reading.switch opt with
      | error stop => rw [hbehind] at hread; cases hread
      | ok behind => rw [switch_awaited awaits] at hbehind; cases hbehind
  · next hcluster =>
    refine .inr ⟨fun hfirst => ?_, by simpa [Reading.plain, awaits, goesOn] using hread.symm⟩
    cases hargument : argument.toList with
    | nil =>
      rw [hargument] at hfirst
      cases hfirst
    | cons c rest =>
      rw [hargument] at hfirst htext
      cases hfirst
      cases rest with
      | nil => exact htext.symm
      | cons c rest => exact (hcluster c rest hargument).elim

/-! ## Whole lists of arguments -/

/-- Nothing comes after the two dashes. -/
theorem not_ended {argument : String} {last : Reading} (ended : reading.ended = true) :
    reading.argument argument ≠ .ok last := by
  simp [Reading.argument, Reading.plain, ended]

/-- The arguments can be read to their end. -/
def Accepts (reading : Reading) (arguments : List String) : Prop :=
  ∃ options, (arguments.foldlM Reading.argument reading >>= fun last =>
    last.settle >>= fun settled => pure settled.options) = .ok options

theorem Accepts.cons {first : String} {rest : List String}
    (h : reading.Accepts (first :: rest)) :
    ∃ behind, reading.argument first = .ok behind ∧ behind.Accepts rest := by
  obtain ⟨options, h⟩ := h
  rw [List.foldlM_cons] at h
  cases hfirst : reading.argument first with
  | error stop => rw [hfirst] at h; cases h
  | ok behind =>
    rw [hfirst] at h
    exact ⟨behind, rfl, options, h⟩

/-- Behind the two dashes, the arguments are at their end, and no value is awaited. -/
theorem Accepts.of_ended {rest : List String} (h : reading.Accepts rest)
    (ended : reading.ended = true) : rest = [] ∧ reading.pending ≠ .valueAwaited := by
  cases rest with
  | nil =>
    refine ⟨rfl, fun awaits => ?_⟩
    obtain ⟨options, h⟩ := h
    replace h : (reading.settle >>= fun settled => pure settled.options) = .ok options := h
    rw [settle, awaits] at h
    cases h
  | cons first rest =>
    obtain ⟨behind, hfirst, -⟩ := h.cons
    exact absurd hfirst (not_ended ended)

/-- Arguments that can be read to their end spell choices, behind a value if one is awaited. -/
theorem Accepts.exists_spells {arguments : List String} (h : reading.Accepts arguments) :
    (reading.Open → ∃ choices, Spells choices arguments) ∧
    (reading.pending = .valueAwaited → reading.ended = false →
      ∃ value rest choices, arguments = value :: rest ∧ value ≠ "" ∧
        (value.toList.head? = some '-' → value = "-") ∧ Spells choices rest) := by
  induction arguments generalizing reading with
  | nil =>
    refine ⟨fun _ => ⟨[], .nothing⟩, fun awaits _ => ?_⟩
    obtain ⟨options, h⟩ := h
    replace h : (reading.settle >>= fun settled => pure settled.options) = .ok options := h
    rw [settle, awaits] at h
    cases h
  | cons first rest ih =>
    obtain ⟨behind, hfirst, hrest⟩ := h.cons
    constructor
    · intro hopen
      rcases argument_ok hopen hfirst with ⟨rfl, hended, -⟩ | ⟨front, hpiece, hbehind⟩ |
        ⟨⟨switches, hhead⟩, hawaits, hgoesOn⟩
      · obtain ⟨rfl, -⟩ := hrest.of_ended hended
        exact ⟨[], .dashes⟩
      · obtain ⟨choices, hspells⟩ := (ih hrest).1 hbehind
        exact ⟨front ++ choices, .cons hpiece hspells⟩
      · obtain ⟨value, later, choices, rfl, hnonempty, hplain, hspells⟩ :=
          (ih hrest).2 hawaits hgoesOn
        exact ⟨_, .cons (.apart hhead hnonempty hplain) hspells⟩
    · intro hawaits hgoesOn
      rcases awaited_ok hawaits hgoesOn hfirst with ⟨rfl, hended, hpending⟩ | ⟨hplain, rfl⟩
      · exact absurd hpending (hrest.of_ended hended).2
      · have hbehind : ({ reading with pending := .value first } : Reading).Open :=
          ⟨hgoesOn, by rintro ⟨⟩⟩
        obtain ⟨choices, hspells⟩ := (ih hrest).1 hbehind
        obtain ⟨options, htotal⟩ := hrest
        rw [read_spelled hspells hbehind] at htotal
        replace htotal : (reading.options.setConfig first >>= fun options =>
            choices.foldlM Options.choose options) = .ok options := htotal
        cases hset : reading.options.setConfig first with
        | error stop => rw [hset] at htotal; cases htotal
        | ok recorded =>
          exact ⟨first, rest, choices, rfl, nonempty_of_setConfig hset, hplain, hspells⟩

end Reading

/-! ## What choices make of the options -/

namespace Options

/-- What options are when choices of different options make them. -/
structure Made (choices : List Choice) (options : Options) : Prop where
  once : (choices.map Choice.opt).Nodup
  status : options.statusOnly = true ↔ .switch .status ∈ choices
  verbose : options.verbose = true ↔ .switch .verbose ∈ choices
  json : options.json = true ↔ .switch .json ∈ choices
  config : ∀ path, options.configPath = some path ↔ .config path.text ∈ choices

/-- Whether an option has been given. -/
def has (options : Options) : Opt → Bool
  | .status => options.statusOnly
  | .config => options.configPath.isSome
  | .verbose => options.verbose
  | .json => options.json
  | .help | .version => false

/-- The options with one more choice. -/
def adding (options : Options) : Choice → Options
  | .switch .status => { options with statusOnly := true }
  | .switch .verbose => { options with verbose := true }
  | .switch .json => { options with json := true }
  | .config value => { options with configPath := some ⟨value⟩ }

variable {options other : Options} {choices : List Choice} {choice : Choice}

theorem choose_eq : options.choose choice =
    if options.has choice.opt then .error (.misuse (.repeated choice.opt))
    else if choice = .config "" then .error (.misuse (.valueMissing .config))
    else .ok (options.adding choice) := by
  cases choice with
  | switch chosen => cases chosen <;> simp [choose, set, has, adding, Choice.opt, Switch.opt]
  | config value => simp [choose, setConfig, has, adding, Choice.opt]

theorem choose_ok (h : options.choose choice = .ok other) :
    options.has choice.opt = false ∧ other = options.adding choice := by
  rw [choose_eq] at h
  split_ifs at h with hrepeated hempty
  exact ⟨by simpa using hrepeated, (Except.ok.inj h).symm⟩

theorem choose_of_new (new : options.has choice.opt = false) (valid : choice ≠ .config "") :
    options.choose choice = .ok (options.adding choice) := by
  rw [choose_eq, new, if_neg Bool.false_ne_true, if_neg valid]

theorem made_nil : Made [] {} where
  once := List.nodup_nil
  status := by simp
  verbose := by simp
  json := by simp
  config := by simp

theorem mem_map_opt_switch (switch : Switch) :
    switch.opt ∈ choices.map Choice.opt ↔ .switch switch ∈ choices := by
  refine ⟨fun h => ?_, fun h => List.mem_map_of_mem (f := Choice.opt) h⟩
  obtain ⟨choice, member, hopt⟩ := List.mem_map.1 h
  cases choice with
  | switch chosen =>
    obtain rfl : chosen = switch := by cases chosen <;> cases switch <;> first | rfl | cases hopt
    exact member
  | config value => cases switch <;> cases hopt

theorem mem_map_opt_config :
    .config ∈ choices.map Choice.opt ↔ ∃ value, .config value ∈ choices := by
  refine ⟨fun h => ?_, fun ⟨value, h⟩ => List.mem_map_of_mem (f := Choice.opt) h⟩
  obtain ⟨choice, member, hopt⟩ := List.mem_map.1 h
  cases choice with
  | switch chosen => cases chosen <;> cases hopt
  | config value => exact ⟨value, member⟩

/-- An option has been given exactly if one of the choices is of it. -/
theorem Made.has_iff (made : Made choices options) :
    options.has choice.opt = true ↔ choice.opt ∈ choices.map Choice.opt := by
  cases choice with
  | switch chosen =>
    rw [Choice.opt, mem_map_opt_switch]
    cases chosen with
    | status => exact made.status
    | verbose => exact made.verbose
    | json => exact made.json
  | config value =>
    rw [Choice.opt, mem_map_opt_config, has, Option.isSome_iff_exists]
    constructor
    · rintro ⟨path, hpath⟩
      exact ⟨path.text, (made.config path).1 hpath⟩
    · rintro ⟨value, member⟩
      exact ⟨⟨value⟩, (made.config ⟨value⟩).2 member⟩

theorem Made.adding (made : Made choices options) (new : options.has choice.opt = false) :
    Made (choices ++ [choice]) (options.adding choice) := by
  have honce : ((choices ++ [choice]).map Choice.opt).Nodup := by
    have hnew : choice.opt ∉ choices.map Choice.opt := by
      rw [← made.has_iff, new]
      exact Bool.false_ne_true
    rw [List.map_append, List.map_singleton]
    refine List.nodup_append.2 ⟨made.once, by simp, fun opt member last hlast hsame => ?_⟩
    rw [List.mem_singleton.1 hlast] at hsame
    exact hnew (hsame ▸ member)
  obtain ⟨-, hstatus, hverbose, hjson, hconfig⟩ := made
  cases choice with
  | switch chosen =>
    cases chosen <;>
      exact ⟨honce, by simp [Options.adding, hstatus], by simp [Options.adding, hverbose],
        by simp [Options.adding, hjson], by simp [Options.adding, hconfig]⟩
  | config value =>
    have hnone (path : Path) : .config path.text ∉ choices := by
      rw [← hconfig]
      intro hpath
      simp [has, Choice.opt, hpath] at new
    refine ⟨honce, by simp [Options.adding, hstatus], by simp [Options.adding, hverbose],
      by simp [Options.adding, hjson], fun path => ?_⟩
    simp only [Options.adding, Option.some.injEq, List.mem_append, hnone, List.mem_singleton,
      Choice.config.injEq, false_or]
    exact ⟨fun h => h ▸ rfl, fun h => by rw [← h]⟩

/-- Options are told by what they are made of. -/
theorem Made.unique (made : Made choices options) (again : Made choices other) :
    options = other := by
  obtain ⟨statusOnly, configPath, verbose, json⟩ := options
  obtain ⟨otherStatusOnly, otherConfigPath, otherVerbose, otherJson⟩ := other
  have hstatus : statusOnly = otherStatusOnly :=
    Bool.eq_iff_iff.2 (made.status.trans again.status.symm)
  have hverbose : verbose = otherVerbose :=
    Bool.eq_iff_iff.2 (made.verbose.trans again.verbose.symm)
  have hjson : json = otherJson := Bool.eq_iff_iff.2 (made.json.trans again.json.symm)
  have hconfig : configPath = otherConfigPath :=
    Option.ext fun path => (made.config path).trans (again.config path).symm
  rw [hstatus, hconfig, hverbose, hjson]

theorem Made.perm {arrangement : List Choice} (made : Made choices options)
    (perm : arrangement.Perm choices) : Made arrangement options where
  once := (perm.map _).nodup_iff.2 made.once
  status := made.status.trans perm.mem_iff.symm
  verbose := made.verbose.trans perm.mem_iff.symm
  json := made.json.trans perm.mem_iff.symm
  config path := (made.config path).trans perm.mem_iff.symm

/-- Choices that can be made one after the other are of different options. -/
theorem made_of_foldlM (h : choices.foldlM choose {} = .ok options) : Made choices options := by
  induction choices using List.reverseRecOn generalizing options with
  | nil =>
    obtain rfl := Except.ok.inj h
    exact made_nil
  | append_singleton choices choice ih =>
    rw [List.foldlM_append] at h
    cases hbefore : choices.foldlM choose {} with
    | error stop => rw [hbefore] at h; cases h
    | ok before =>
      rw [hbefore] at h
      replace h : before.choose choice >>= pure = .ok options := h
      rw [bind_pure] at h
      obtain ⟨hnew, rfl⟩ := choose_ok h
      exact (ih hbefore).adding hnew

/-- Choices of different options can be made one after the other. -/
theorem exists_foldlM (once : (choices.map Choice.opt).Nodup) (valid : .config "" ∉ choices) :
    ∃ options, choices.foldlM choose {} = .ok options := by
  induction choices using List.reverseRecOn with
  | nil => exact ⟨{}, rfl⟩
  | append_singleton choices choice ih =>
    rw [List.map_append, List.map_singleton, List.nodup_append] at once
    rw [List.mem_append, not_or, List.mem_singleton] at valid
    obtain ⟨before, hbefore⟩ := ih once.1 valid.1
    have hnew : before.has choice.opt = false := by
      rw [← Bool.not_eq_true, (made_of_foldlM hbefore).has_iff]
      exact fun member => once.2.2 _ member _ (List.mem_singleton.2 rfl) rfl
    refine ⟨before.adding choice, ?_⟩
    rw [List.foldlM_append, hbefore]
    show before.choose choice >>= pure = _
    rw [bind_pure, choose_of_new hnew (Ne.symm valid.2)]

end Options

/-- No value is empty. -/
theorem Piece.valid {front : List Choice} {first : List String} (piece : Piece front first) :
    .config "" ∉ front := by
  cases piece with
  | name switch => simp
  | letters spelled nonempty => simp
  | apart spelled nonempty plain => simpa using Ne.symm nonempty
  | attached spelled nonempty => simpa using Ne.symm nonempty
  | direct spelled nonempty plain => simpa using Ne.symm nonempty

theorem Spells.valid {choices : List Choice} {arguments : List String}
    (spelled : Spells choices arguments) : .config "" ∉ choices := by
  induction spelled with
  | nothing => simp
  | dashes => simp
  | cons piece _ ih => simpa using ⟨piece.valid, ih⟩

/-- Arguments are accepted exactly if they spell choices of different options, which then make the
options. -/
theorem Options.parse_eq_ok_iff {arguments : List String} {options : Options} :
    Options.parse arguments = .ok options ↔
      ∃ choices, Spells choices arguments ∧ Made choices options := by
  constructor
  · intro h
    obtain ⟨choices, hspells⟩ := (Reading.Accepts.exists_spells ⟨options, h⟩).1
      (Reading.open_recorded {})
    rw [parse_spelled hspells] at h
    exact ⟨choices, hspells, made_of_foldlM h⟩
  · rintro ⟨choices, hspells, hmade⟩
    obtain ⟨again, hagain⟩ := exists_foldlM hmade.once hspells.valid
    rw [parse_spelled hspells, hagain, hmade.unique (made_of_foldlM hagain)]

example : Options.parse ["-vsc", "sgx.toml", "--json"] =
    Options.parse ["--json", "--config=sgx.toml", "-s", "--verbose", "--"] := rfl

end SgxActivation.CommandLine
