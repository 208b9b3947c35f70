import SgxActivation.Proofs.CommandLine.Parsing

/-!
# Arguments that stop an invocation

Which arguments lead to no run, and for what reason.

* `Opt.stop?` — the two options that end an invocation, and what they end it with;
* **`Requests`** — arguments that ask for such an option behind accepted ones, whatever comes after;
* `Reading.argument_of_asks`, `Reading.argument_stop` — a single argument ends the invocation with
  the help or the version exactly if it asks for it;
* **`Options.parse_eq_stop_iff`** — so do whole lists of arguments if they request it;
* **`Options.exists_misuse_iff`** — arguments are misused exactly if they neither spell options nor
  request one of the two.
-/

namespace SgxActivation.CommandLine

/-- What an option ends the invocation with, if it does. -/
def Opt.stop? : Opt → Option Stop
  | .help => some .help
  | .version => some .version
  | .status | .config | .verbose | .json => none

/-- An argument that asks for an option, and the switches in front of it in the same cluster. What
stands behind the letter makes no difference. -/
inductive Asks (opt : Opt) : List Switch → String → Prop
  | name : Asks opt [] ("--" ++ opt.name)
  | letter {switches letters c} (rest : List Char) : Letters switches letters →
      opt.letter? = some c →
      Asks opt switches ("-" ++ String.ofList letters ++ String.ofList (c :: rest))

/-- Arguments that ask for an option behind accepted choices of different options. What comes after
is not looked at. -/
inductive Requests (opt : Opt) : List String → Prop
  | intro {choices before switches argument options} (after : List String) :
      Spells choices before → "--" ∉ before → Asks opt switches argument →
      Options.Made (choices ++ switches.map .switch) options →
      Requests opt (before ++ argument :: after)

variable {opt other : Opt} {stop : Stop} {misuse : Misuse}

namespace Opt

/-- The help and the version are no misuse. -/
theorem misuse_ne_stop {α : Type} (asked : opt.stop? = some stop) :
    (.error (.misuse misuse) : Except Stop α) ≠ .error stop := by
  rintro ⟨⟩
  cases opt <;> cases asked

theorem eq_of_stop? (h : opt.stop? = some stop) (again : other.stop? = some stop) :
    other = opt := by
  cases opt <;> cases h <;> cases other <;> first | rfl | cases again

end Opt

/-! ## What is wrong with options -/

namespace Options

variable {options : Options} {choice : Choice}

/-- A switch that is not accepted asks for the end, or is misused. -/
theorem set_stop (h : options.set opt = .error stop) :
    opt.stop? = some stop ∨ ∃ misuse, stop = .misuse misuse := by
  cases opt with
  | help | version =>
    cases h
    exact .inl rfl
  | config =>
    cases h
    exact .inr ⟨_, rfl⟩
  | status | verbose | json =>
    simp only [set] at h
    split at h
    · cases h
      exact .inr ⟨_, rfl⟩
    · cases h

theorem choose_ne_stop (asked : opt.stop? = some stop) : options.choose choice ≠ .error stop := by
  rw [choose_eq]
  split_ifs
  · exact Opt.misuse_ne_stop asked
  · exact Opt.misuse_ne_stop asked
  · nofun

end Options

namespace Reading

variable {reading : Reading} {switches : List Switch} {choices : List Choice}

theorem total_ne_stop (asked : opt.stop? = some stop) : reading.total choices ≠ .error stop := by
  unfold total
  generalize reading.owed ++ choices = all
  generalize reading.options = options
  induction all generalizing options with
  | nil => nofun
  | cons choice rest ih =>
    rw [List.foldlM_cons]
    cases hfirst : options.choose choice with
    | error early =>
      rintro ⟨⟩
      exact Options.choose_ne_stop asked hfirst
    | ok behind => exact ih behind

/-- What is not accepted for another reason than misuse is not accepted behind the choices. -/
theorem advance_bind_stop {β : Type} (asked : opt.stop? = some stop)
    {next : Reading → Except Stop β} (h : reading.advance choices >>= next = .error stop) :
    ∃ options, reading.total choices = .ok options ∧ next (recorded options) = .error stop := by
  rw [advance_bind] at h
  cases htotal : reading.total choices with
  | error early =>
    rw [htotal] at h
    cases h
    exact absurd htotal (total_ne_stop asked)
  | ok options =>
    rw [htotal] at h
    exact ⟨options, rfl, h⟩

/-- What is read behind accepted choices comes to them and what follows. -/
theorem total_of_advance {behind : Reading} (h : reading.advance choices = .ok behind)
    (more : List Choice) : reading.total (choices ++ more) = behind.total more := by
  rw [total_append]
  unfold advance at h
  cases htotal : reading.total choices with
  | error early =>
    rw [htotal] at h
    cases h
  | ok options =>
    rw [htotal] at h
    cases h
    rfl

/-! ## Requests are met -/

/-- Reading an option that ends the invocation only records what is owed. -/
theorem switch_of_stop (asked : opt.stop? = some stop) (h : reading.Open) :
    reading.switch opt = reading.total [] >>= fun _ => .error stop := by
  rw [switch_begins h, advance_bind]
  cases opt with
  | help | version =>
    cases asked
    rfl
  | status | config | verbose | json => cases asked

theorem cluster_of_stop (asked : opt.stop? = some stop) {c : Char}
    (letter : opt.letter? = some c) (rest : List Char) :
    cluster (c :: rest) reading = reading.switch opt >>= cluster rest := by
  cases opt with
  | help | version =>
    cases letter
    rfl
  | status | config | verbose | json => cases asked

/-- An argument that asks for an option ends the invocation with it, if the switches in front of it
are accepted. -/
theorem argument_of_asks (asked : opt.stop? = some stop) (h : reading.Open) {argument : String}
    (asks : Asks opt switches argument) :
    reading.argument argument =
      reading.total (switches.map .switch) >>= fun _ => .error stop := by
  cases asks with
  | name =>
    have hname : opt.name.toList ≠ [] := by cases opt <;> decide
    have hlong : reading.long opt.name.toList = reading.switch opt := by
      cases opt with
      | help | version => rfl
      | status | config | verbose | json => cases asked
    rw [← String.ofList_toList (s := opt.name), long_of_argument h hname, hlong,
      switch_of_stop asked h]
    rfl
  | @letter switches letters c rest spelled hletter =>
    have hstop (behind : Reading) (hopen : behind.Open) :
        cluster (c :: rest) behind = behind.total [] >>= fun _ => .error stop := by
      rw [cluster_of_stop asked hletter, switch_of_stop asked hopen, bind_assoc]
      rfl
    have hbegins : cluster (c :: rest) reading = reading.advance [] >>= cluster (c :: rest) := by
      rw [hstop reading h, advance_bind]
      congr 1
      funext options
      exact (hstop _ (open_recorded options)).symm
    have hdash : c ≠ '-' := by
      rintro rfl
      cases opt <;> exact absurd hletter (by decide)
    rw [argument_cluster h spelled hdash, cluster_append h spelled _ (.inr hbegins), advance_bind]
    congr 1
    funext options
    exact hstop _ (open_recorded options)

/-! ## Only requests are met -/

/-- A switch ends the invocation with what an option asks for only if it is this option. -/
theorem switch_stop (asked : opt.stop? = some stop) (h : reading.Open)
    (hread : reading.switch other = .error stop) :
    other = opt ∧ ∃ options, reading.total [] = .ok options := by
  rw [switch_begins h] at hread
  obtain ⟨options, htotal, hread⟩ := advance_bind_stop asked hread
  replace hread : (options.set other >>= fun options => pure (recorded options)) =
    .error stop := hread
  refine ⟨?_, options, htotal⟩
  cases hset : options.set other with
  | error first =>
    rw [hset] at hread
    rcases Options.set_stop hset with hagain | ⟨misuse, rfl⟩
    · cases hread
      exact Opt.eq_of_stop? asked hagain
    · exact absurd hread (Opt.misuse_ne_stop asked)
  | ok after =>
    rw [hset] at hread
    cases hread

/-- With `config`, there is only misuse. -/
theorem config_ne_stop (asked : opt.stop? = some stop) (h : reading.Open)
    (attached : Option String) : reading.config attached ≠ .error stop := by
  intro hread
  cases attached with
  | none =>
    rw [config_begins h] at hread
    obtain ⟨options, -, hread⟩ := advance_bind_stop asked hread
    cases hread
  | some value =>
    rw [config_value_eq h, ← bind_pure (reading.advance _)] at hread
    obtain ⟨options, -, hread⟩ := advance_bind_stop asked hread
    cases hread

theorem cluster_stop (asked : opt.stop? = some stop) {text : List Char} (h : reading.Open)
    (hread : cluster text reading = .error stop) :
    ∃ switches letters c rest, text = letters ++ c :: rest ∧ Letters switches letters ∧
      opt.letter? = some c ∧ ∃ options, reading.total (switches.map .switch) = .ok options := by
  induction text generalizing reading with
  | nil => cases hread
  | cons c rest ih =>
    rw [cluster] at hread
    split at hread
    · exact absurd hread (Opt.misuse_ne_stop asked)
    · exact absurd hread (config_ne_stop asked h _)
    · next chosen _ hopt =>
      have hletter := letter_of_ofLetter? hopt
      cases hswitch : reading.switch chosen with
      | error first =>
        rw [hswitch] at hread
        cases hread
        obtain ⟨rfl, htotal⟩ := switch_stop asked h hswitch
        exact ⟨[], [], c, rest, rfl, .nil, hletter, htotal⟩
      | ok behind =>
        obtain ⟨⟨switch, rfl⟩, hopen⟩ := switch_ok h hswitch
        rw [hswitch] at hread
        obtain ⟨switches, letters, last, tail, rfl, hletters, hlast, options, htotal⟩ :=
          ih hopen hread
        refine ⟨switch :: switches, c :: letters, last, tail, rfl, .cons hletter hletters, hlast,
          options, ?_⟩
        have hbehind : reading.advance [.switch switch] = .ok behind := by
          rw [← switch_eq h, hswitch]
        rw [← htotal]
        exact total_of_advance hbehind _

/-- Behind two dashes, an option is only asked for by its name. -/
theorem long_stop (asked : opt.stop? = some stop) {text : List Char} (h : reading.Open)
    (hread : reading.long text = .error stop) :
    String.ofList text = opt.name ∧ ∃ options, reading.total [] = .ok options := by
  cases hrest : text.dropWhile (· != '=') with
  | nil =>
    simp only [long, hrest] at hread
    split at hread
    · exact absurd hread (Opt.misuse_ne_stop asked)
    · exact absurd hread (config_ne_stop asked h _)
    · next hvalue => cases hvalue
    · next hopt _ =>
      obtain ⟨rfl, htotal⟩ := switch_stop asked h hread
      have hnamed := named_of_ofName? hopt
      rw [hrest, String.ofList_nil, String.append_empty] at hnamed
      exact ⟨hnamed, htotal⟩
  | cons c value =>
    obtain rfl := equals_of_dropWhile hrest
    simp only [long, hrest] at hread
    split at hread
    · exact absurd hread (Opt.misuse_ne_stop asked)
    · exact absurd hread (config_ne_stop asked h _)
    · exact absurd hread (Opt.misuse_ne_stop asked)
    · next hvalue => cases hvalue

theorem plain_ne_stop (asked : opt.stop? = some stop) (argument : String) :
    reading.plain argument ≠ .error stop := by
  unfold plain
  split
  · nofun
  · exact Opt.misuse_ne_stop asked

/-- An argument that ends the invocation with the help or the version asks for it, and the switches
in front of it are accepted. -/
theorem argument_stop (asked : opt.stop? = some stop) {argument : String} (h : reading.Open)
    (hread : reading.argument argument = .error stop) :
    ∃ switches, Asks opt switches argument ∧
      ∃ options, reading.total (switches.map .switch) = .ok options := by
  have htext := String.ofList_toList (s := argument)
  rw [Reading.argument, h.goesOn, if_neg Bool.false_ne_true] at hread
  split at hread
  · cases hread
  · next rest _ hlong =>
    rw [hlong] at htext
    obtain ⟨hname, htotal⟩ := long_stop asked h hread
    have hlonger : "--" ++ opt.name = argument := by
      rw [← htext, ← hname, String.ofList_cons, String.ofList_cons, ← String.append_assoc]
      rfl
    exact ⟨[], hlonger ▸ .name, htotal⟩
  · next c rest _ _ hcluster =>
    rw [hcluster] at htext
    obtain ⟨switches, letters, last, tail, hletters, hspelled, hlast, htotal⟩ :=
      cluster_stop asked h hread
    have hlonger : "-" ++ String.ofList letters ++ String.ofList (last :: tail) = argument := by
      rw [← htext, hletters, String.ofList_cons (c := '-'), String.ofList_append,
        String.append_assoc]
      rfl
    exact ⟨switches, hlonger ▸ .letter tail hspelled hlast, htotal⟩
  · exact absurd hread (plain_ne_stop asked argument)

/-- Where the value of `config` is awaited, an argument that is not accepted is misused. -/
theorem awaited_ne_stop (asked : opt.stop? = some stop) (awaits : reading.pending = .valueAwaited)
    (goesOn : reading.ended = false) (argument : String) :
    reading.argument argument ≠ .error stop := by
  intro hread
  rw [Reading.argument, goesOn, if_neg Bool.false_ne_true] at hread
  split at hread
  · cases hread
  · unfold long at hread
    dsimp only at hread
    split at hread
    · exact absurd hread (Opt.misuse_ne_stop asked)
    · rw [config_awaited awaits] at hread
      exact absurd hread (Opt.misuse_ne_stop asked)
    · exact absurd hread (Opt.misuse_ne_stop asked)
    · rw [switch_awaited awaits] at hread
      exact absurd hread (Opt.misuse_ne_stop asked)
  · rw [cluster] at hread
    split at hread
    · exact absurd hread (Opt.misuse_ne_stop asked)
    · rw [config_awaited awaits] at hread
      exact absurd hread (Opt.misuse_ne_stop asked)
    · rw [switch_awaited awaits] at hread
      exact absurd hread (Opt.misuse_ne_stop asked)
  · exact absurd hread (plain_ne_stop asked argument)

/-- An argument that asks for the end stands where an option may come next. -/
theorem open_of_stop (asked : opt.stop? = some stop) {argument : String}
    (hread : reading.argument argument = .error stop) : reading.Open := by
  have hended : reading.ended = false := by
    cases hended : reading.ended with
    | false => rfl
    | true =>
      rw [Reading.argument, hended, if_pos rfl] at hread
      exact absurd hread (plain_ne_stop asked argument)
  exact ⟨hended, fun awaits => awaited_ne_stop asked awaits hended argument hread⟩

/-! ## Whole lists of arguments -/

/-- Arguments that are not read to their end stop at one of them. -/
theorem exists_of_foldlM_error {arguments : List String}
    (h : arguments.foldlM Reading.argument reading = .error stop) :
    ∃ before argument after behind, arguments = before ++ argument :: after ∧
      before.foldlM Reading.argument reading = .ok behind ∧
      behind.argument argument = .error stop := by
  induction arguments generalizing reading with
  | nil => cases h
  | cons first rest ih =>
    rw [List.foldlM_cons] at h
    cases hfirst : reading.argument first with
    | error early =>
      rw [hfirst] at h
      cases h
      exact ⟨[], first, rest, reading, rfl, rfl, hfirst⟩
    | ok next =>
      rw [hfirst] at h
      obtain ⟨before, argument, after, behind, rfl, hbefore, hstop⟩ := ih h
      refine ⟨first :: before, argument, after, behind, rfl, ?_, hstop⟩
      rw [List.foldlM_cons, hfirst]
      exact hbefore

theorem foldlM_cons_ok {first : String} {rest : List String} {last : Reading}
    (hread : (first :: rest).foldlM Reading.argument reading = .ok last) :
    ∃ behind, reading.argument first = .ok behind ∧
      rest.foldlM Reading.argument behind = .ok last := by
  rw [List.foldlM_cons] at hread
  cases hfirst : reading.argument first with
  | error stop =>
    rw [hfirst] at hread
    cases hread
  | ok behind =>
    rw [hfirst] at hread
    exact ⟨behind, rfl, hread⟩

theorem ended_of_foldlM {arguments : List String} {last : Reading} (ended : reading.ended = true)
    (hread : arguments.foldlM Reading.argument reading = .ok last) : last.ended = true := by
  cases arguments with
  | nil =>
    cases hread
    exact ended
  | cons first rest =>
    obtain ⟨behind, hfirst, -⟩ := foldlM_cons_ok hread
    exact absurd hfirst (not_ended ended)

/-- At the end of the arguments, only the value of `config` can be wrong. -/
theorem settle_ne_stop (asked : opt.stop? = some stop) :
    (reading.settle >>= fun settled => pure settled.options) ≠ .error stop := by
  by_cases hpending : reading.pending = .valueAwaited
  · rw [settle, hpending]
    exact Opt.misuse_ne_stop asked
  · rw [settle_options reading hpending]
    exact total_ne_stop asked

/-- Two dashes end the options for good. -/
theorem dashes_not_mem {arguments : List String} {last : Reading}
    (hread : arguments.foldlM Reading.argument reading = .ok last) (goesOn : last.ended = false) :
    "--" ∉ arguments := by
  induction arguments generalizing reading with
  | nil => exact List.not_mem_nil
  | cons first rest ih =>
    obtain ⟨behind, hfirst, hrest⟩ := foldlM_cons_ok hread
    -- Were the first one the two dashes, all later readings would have ended too.
    rw [List.mem_cons, not_or]
    refine ⟨?_, ih hrest⟩
    rintro rfl
    have hended : reading.ended = false := by
      rw [← Bool.not_eq_true]
      exact fun ended => not_ended ended hfirst
    have hbehind : behind = { reading with ended := true } := by
      simpa [Reading.argument, hended] using hfirst.symm
    rw [ended_of_foldlM (by rw [hbehind]) hrest] at goesOn
    cases goesOn

/-- Where options have been read and an argument stops the reading, they spell choices that are
accepted together with the switches in front of the argument's request. -/
theorem exists_made_of_stop (asked : opt.stop? = some stop) {before : List String}
    {argument : String} {behind : Reading}
    (hbefore : before.foldlM Reading.argument {} = .ok behind)
    (hstop : behind.argument argument = .error stop) : ∃ choices switches options,
      Spells choices before ∧ Asks opt switches argument ∧
        Options.Made (choices ++ switches.map .switch) options := by
  have hopen := open_of_stop asked hstop
  obtain ⟨switches, hasks, options, htotal⟩ := argument_stop asked hopen hstop
  -- What is owed can be recorded, so the arguments so far would be accepted on their own.
  obtain ⟨sofar, hsofar⟩ : ∃ sofar, behind.total [] = .ok sofar := by
    rw [← List.nil_append (switches.map _), total_append] at htotal
    cases hsofar : behind.total [] with
    | error early => rw [hsofar] at htotal; cases htotal
    | ok sofar => exact ⟨sofar, rfl⟩
  have haccepts : Accepts {} before := by
    refine ⟨sofar, ?_⟩
    rw [hbefore]
    exact (settle_options behind hopen.free).trans hsofar
  obtain ⟨choices, hspells⟩ := haccepts.exists_spells.1 (open_recorded {})
  refine ⟨choices, switches, options, hspells, hasks, Options.made_of_foldlM ?_⟩
  have hread := spelled_read hspells (dashes_not_mem hbefore hopen.goesOn) (open_recorded {})
    fun reading _ => (bind_pure (reading.total (switches.map .switch))).symm
  rw [bind_pure, recorded, hbefore] at hread
  exact hread.symm.trans htotal

end Reading

/-- Arguments stop with the help or the version exactly if they request it. -/
theorem Options.parse_eq_stop_iff {arguments : List String} (asked : opt.stop? = some stop) :
    Options.parse arguments = .error stop ↔ Requests opt arguments := by
  constructor
  · intro h
    cases hread : arguments.foldlM Reading.argument {} with
    | error early =>
      -- What is in front of the argument that stops the reading is accepted.
      rw [parse, hread] at h
      cases h
      obtain ⟨before, argument, after, behind, rfl, hbefore, hstop⟩ :=
        Reading.exists_of_foldlM_error hread
      obtain ⟨choices, switches, options, hspells, hasks, hmade⟩ :=
        Reading.exists_made_of_stop asked hbefore hstop
      have hgoesOn := (Reading.open_of_stop asked hstop).goesOn
      exact .intro after hspells (Reading.dashes_not_mem hbefore hgoesOn) hasks hmade
    | ok last =>
      rw [parse, hread] at h
      exact absurd h (Reading.settle_ne_stop asked)
  · rintro @⟨choices, before, switches, argument, options, after, hspells, hgoesOn, hasks, hmade⟩
    have hstops (reading : Reading) (hopen : reading.Open) :
        ((argument :: after).foldlM Reading.argument reading >>= fun last =>
          last.settle >>= fun settled => pure settled.options) =
            reading.total (switches.map .switch) >>= fun _ => .error stop := by
      rw [List.foldlM_cons, Reading.argument_of_asks asked hopen hasks, bind_assoc, bind_assoc]
      rfl
    obtain ⟨total, htotal⟩ := exists_foldlM hmade.once (by simpa using hspells.valid)
    replace htotal : (Reading.recorded {}).total (choices ++ switches.map .switch) =
      .ok total := htotal
    have hread := Reading.spelled_read hspells hgoesOn (Reading.open_recorded {}) hstops
    rw [htotal] at hread
    rw [parse, List.foldlM_append, bind_assoc]
    exact hread

example : Options.parse ["-s", "-c", "sgx.toml", "-vVx", "--status"] = .error .version := rfl

/-- Arguments are misused exactly if they neither spell choices of different options nor request
the help or the version. -/
theorem Options.exists_misuse_iff {arguments : List String} :
    (∃ misuse, Options.parse arguments = .error (.misuse misuse)) ↔
      (∀ choices options, Spells choices arguments → ¬ Options.Made choices options) ∧
      ¬ Requests .help arguments ∧ ¬ Requests .version arguments := by
  have hhelp : Options.parse arguments = .error .help ↔ Requests .help arguments :=
    Options.parse_eq_stop_iff rfl
  have hversion : Options.parse arguments = .error .version ↔ Requests .version arguments :=
    Options.parse_eq_stop_iff rfl
  rw [← hhelp, ← hversion]
  constructor
  · rintro ⟨misuse, h⟩
    rw [h]
    refine ⟨fun choices options hspells hmade => ?_, nofun, nofun⟩
    rw [Options.parse_eq_ok_iff.2 ⟨choices, hspells, hmade⟩] at h
    cases h
  · rintro ⟨hnone, hnohelp, hnoversion⟩
    cases hparse : Options.parse arguments with
    | ok options =>
      obtain ⟨choices, hspells, hmade⟩ := Options.parse_eq_ok_iff.1 hparse
      exact absurd hmade (hnone choices options hspells)
    | error stop =>
      cases stop with
      | help => exact absurd hparse hnohelp
      | version => exact absurd hparse hnoversion
      | misuse misuse => exact ⟨misuse, rfl⟩

end SgxActivation.CommandLine
