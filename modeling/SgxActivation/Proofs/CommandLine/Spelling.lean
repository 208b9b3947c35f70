import Mathlib.Data.List.Forall2
import Mathlib.Data.List.Induction
import SgxActivation.CommandLine.Options

/-!
# Spellings of options

What a run can be asked for, apart from how that is spelled, and that arguments are read as the
choices they spell.

* **`Choice`** — a switch, or a configuration file;
* **`Spells`** — the arguments that spell a list of choices: by name or by letter, alone or in a
  cluster, with the value attached or in an argument of its own;
* `Reading.total` — what a reading comes to with further choices, those included that it has read
  and not recorded. In these terms early and late recording are the same;
* `Reading.spelled_read` — reading what spells choices comes to these and to what follows;
* **`Options.parse_spelled`** — arguments that spell choices are read as these choices, one after
  the other.
-/

namespace SgxActivation.CommandLine

/-! ## Choices and how they are spelled -/

/-- The switches that shape a run. -/
inductive Switch where
  | status
  | verbose
  | json
  deriving DecidableEq, Repr

/-- A switch as an option. -/
def Switch.opt : Switch → Opt
  | .status => .status
  | .verbose => .verbose
  | .json => .json

/-- One thing that a run is asked for. -/
inductive Choice where
  | switch (switch : Switch)
  | config (value : String)
  deriving DecidableEq, Repr

/-- The option of a choice. -/
def Choice.opt : Choice → Opt
  | .switch chosen => chosen.opt
  | .config _ => .config

/-- Switches by their letters. -/
def Letters : List Switch → List Char → Prop :=
  List.Forall₂ fun switch c => switch.opt.letter? = some c

/-- An argument up to where a value of `config` can stand, and the switches in front of it. -/
inductive Head : List Switch → String → Prop
  | name : Head [] "--config"
  | letter {switches letters} : Letters switches letters →
      Head switches ("-" ++ String.ofList letters ++ "c")

/-- The choices that one argument makes, together with the next one where that is a value. -/
inductive Piece : List Choice → List String → Prop
  /-- A switch by its name. -/
  | name (switch : Switch) : Piece [.switch switch] ["--" ++ switch.opt.name]
  /-- Switches by their letters. -/
  | letters {switches letters} : Letters switches letters → letters ≠ [] →
      Piece (switches.map .switch) ["-" ++ String.ofList letters]
  /-- A value in an argument of its own, which may not look like an option. -/
  | apart {switches head value} : Head switches head → value ≠ "" →
      (value.toList.head? = some '-' → value = "-") →
      Piece (switches.map .switch ++ [.config value]) [head, value]
  /-- A value behind `=`. -/
  | attached {switches head value} : Head switches head → value ≠ "" →
      Piece (switches.map .switch ++ [.config value]) [head ++ "=" ++ value]
  /-- A value right behind the letter. -/
  | direct {switches letters value} : Letters switches letters → value ≠ "" →
      value.toList.head? ≠ some '=' →
      Piece (switches.map .switch ++ [.config value]) ["-" ++ String.ofList letters ++ "c" ++ value]

/-- Arguments that make choices, in this order. Two dashes may stand at the end. -/
inductive Spells : List Choice → List String → Prop
  | nothing : Spells [] []
  | dashes : Spells [] ["--"]
  | cons {front first choices rest} : Piece front first → Spells choices rest →
      Spells (front ++ choices) (first ++ rest)

/-! ## Readings -/

/-- Records a choice. -/
def Options.choose (options : Options) : Choice → Except Stop Options
  | .switch chosen => options.set chosen.opt
  | .config value => options.setConfig value

namespace Reading

/-- An option may come next. -/
structure Open (reading : Reading) : Prop where
  goesOn : reading.ended = false
  free : reading.pending ≠ .valueAwaited

/-- The choice that has been read and is not recorded yet. -/
def owed (reading : Reading) : List Choice :=
  match reading.pending with
  | .value text => [.config text]
  | _ => []

/-- What a reading comes to if it goes on with these choices. -/
def total (reading : Reading) (choices : List Choice) : Except Stop Options :=
  (reading.owed ++ choices).foldlM Options.choose reading.options

/-- A reading that owes nothing. -/
def recorded (options : Options) : Reading := { options }

/-- The reading behind these choices, all of them recorded. -/
def advance (reading : Reading) (choices : List Choice) : Except Stop Reading :=
  reading.total choices >>= fun options => pure (recorded options)

variable {reading : Reading} {switches : List Switch} {letters : List Char}

theorem open_recorded (options : Options) : (recorded options).Open := ⟨rfl, nofun⟩

theorem total_append (first second : List Choice) :
    reading.total (first ++ second) =
      reading.total first >>= fun options => (recorded options).total second := by
  rw [total, ← List.append_assoc, List.foldlM_append]
  rfl

theorem advance_bind {β : Type} (choices : List Choice) (next : Reading → Except Stop β) :
    reading.advance choices >>= next =
      reading.total choices >>= fun options => next (recorded options) := by
  rw [advance, bind_assoc]
  rfl

theorem advance_congr {β : Type} {choices : List Choice} {f g : Reading → Except Stop β}
    (h : ∀ options, f (recorded options) = g (recorded options)) :
    reading.advance choices >>= f = reading.advance choices >>= g := by
  rw [advance_bind, advance_bind]
  exact congrArg _ (funext h)

theorem advance_advance {β : Type} (first second : List Choice)
    (next : Reading → Except Stop β) :
    (reading.advance first >>= fun behind => behind.advance second >>= next) =
      reading.advance (first ++ second) >>= next := by
  simp only [advance_bind, total_append, bind_assoc]

theorem total_singleton (choice : Choice) :
    reading.total [choice] = reading.total [] >>= fun options => options.choose choice := by
  rw [← List.nil_append [choice], total_append]
  congr 1
  funext options
  exact bind_pure _

/-! ### Single options -/

/-- Recording what is owed. -/
theorem settle_eq (h : reading.Open) : reading.settle = reading.advance [] := by
  obtain ⟨options, pending, ended⟩ := reading
  obtain ⟨rfl, hfree⟩ := h
  cases pending with
  | nothing => rfl
  | valueAwaited => exact absurd rfl hfree
  | value text =>
    show _ = (options.setConfig text >>= pure) >>= _
    rw [bind_pure]
    rfl

theorem switch_eq (h : reading.Open) (switch : Switch) :
    reading.switch switch.opt = reading.advance [.switch switch] := by
  rw [Reading.switch, settle_eq h, advance_bind, advance, total_singleton, bind_assoc]
  rfl

theorem config_value_eq (h : reading.Open) (value : String) :
    reading.config (some value) = reading.advance [.config value] := by
  rw [Reading.config, settle_eq h, advance_bind, advance, total_singleton, bind_assoc]
  rfl

/-- Reading an option begins with recording what is owed. -/
theorem switch_begins (h : reading.Open) (opt : Opt) :
    reading.switch opt = reading.advance [] >>= fun behind => behind.switch opt := by
  rw [Reading.switch, settle_eq h, advance_bind, advance_bind]
  rfl

theorem config_begins (h : reading.Open) (attached : Option String) :
    reading.config attached = reading.advance [] >>= fun behind => behind.config attached := by
  rw [Reading.config, settle_eq h, advance_bind, advance_bind]
  rfl

/-! ### Clusters -/

theorem cluster_cons {switch : Switch} {c : Char} (hletter : switch.opt.letter? = some c)
    (rest : List Char) :
    cluster (c :: rest) reading = reading.switch switch.opt >>= cluster rest := by
  cases switch with
  | status =>
    obtain rfl := Option.some.inj hletter
    rfl
  | verbose =>
    obtain rfl := Option.some.inj hletter
    rfl
  | json => cases hletter

theorem cluster_recorded (spelled : Letters switches letters) (rest : List Char)
    (options : Options) :
    cluster (letters ++ rest) (recorded options) =
      (recorded options).advance (switches.map .switch) >>= cluster rest := by
  induction spelled generalizing options with
  | nil => rfl
  | @cons switch c switches letters hletter _ ih =>
    rw [List.cons_append, cluster_cons hletter, switch_eq (open_recorded options),
      advance_congr (g := fun behind => behind.advance (switches.map .switch) >>= cluster rest) ih,
      advance_advance]
    rfl

theorem cluster_append (h : reading.Open) (spelled : Letters switches letters)
    (rest : List Char)
    (begins : letters ≠ [] ∨ cluster rest reading = reading.advance [] >>= cluster rest) :
    cluster (letters ++ rest) reading =
      reading.advance (switches.map .switch) >>= cluster rest := by
  cases spelled with
  | nil => exact begins.resolve_left (· rfl)
  | @cons switch c switches letters hletter spelled =>
    rw [List.cons_append, cluster_cons hletter, switch_eq h,
      advance_congr (g := fun behind => behind.advance (switches.map .switch) >>= cluster rest)
        (cluster_recorded spelled rest), advance_advance]
    rfl

/-! ### Arguments -/

theorem long_of_argument (h : reading.Open) {text : List Char} (nonempty : text ≠ []) :
    reading.argument ("--" ++ String.ofList text) = reading.long text := by
  obtain ⟨c, rest, rfl⟩ := List.exists_cons_of_ne_nil nonempty
  simp [Reading.argument, h.goesOn]

theorem cluster_of_argument (h : reading.Open) {argument : String} {c : Char} {rest : List Char}
    (text : argument.toList = '-' :: c :: rest) (letter : c ≠ '-') :
    reading.argument argument = cluster (c :: rest) reading := by
  simp only [Reading.argument, h.goesOn, text]
  split <;> simp_all

theorem argument_name (h : reading.Open) (switch : Switch) :
    reading.argument ("--" ++ switch.opt.name) = reading.advance [.switch switch] := by
  have hlong : reading.long switch.opt.name.toList = reading.switch switch.opt := by
    cases switch <;> rfl
  have hname : switch.opt.name.toList ≠ [] := by cases switch <;> decide
  rw [← switch_eq h, ← hlong, ← long_of_argument h hname, String.ofList_toList]

/-- The letter of a switch is no dash. -/
theorem ne_dash_of_letter {switch : Switch} {c : Char} (h : switch.opt.letter? = some c) :
    c ≠ '-' := by
  rintro rfl
  cases switch <;> exact absurd h (by decide)

theorem argument_letters (h : reading.Open) (spelled : Letters switches letters)
    (nonempty : letters ≠ []) :
    reading.argument ("-" ++ String.ofList letters) =
      reading.advance (switches.map .switch) := by
  cases spelled with
  | nil => exact absurd rfl nonempty
  | @cons switch c switches letters hletter spelled =>
    have htext : ("-" ++ String.ofList (c :: letters)).toList = '-' :: c :: letters := by simp
    rw [cluster_of_argument h htext (ne_dash_of_letter hletter)]
    have hcluster := cluster_append h (.cons hletter spelled) [] (.inl nonempty)
    rw [List.append_nil] at hcluster
    rw [hcluster]
    exact bind_pure _

/-- Without `=`, all that stands behind the letter is the value. -/
theorem attachedTo_direct {c : Char} {rest : List Char} (other : c ≠ '=') :
    attachedTo (c :: rest) = some (String.ofList (c :: rest)) := by
  unfold attachedTo
  split <;> simp_all

/-- The letters of switches and a further one are read as a cluster. -/
theorem argument_cluster (h : reading.Open) (spelled : Letters switches letters) {c : Char}
    (letter : c ≠ '-') (rest : List Char) :
    reading.argument ("-" ++ String.ofList letters ++ String.ofList (c :: rest)) =
      cluster (letters ++ c :: rest) reading := by
  have htext : ("-" ++ String.ofList letters ++ String.ofList (c :: rest)).toList =
      '-' :: (letters ++ c :: rest) := by simp
  cases spelled with
  | nil => exact cluster_of_argument h htext letter
  | cons hletter spelled => exact cluster_of_argument h htext (ne_dash_of_letter hletter)

theorem argument_letter (h : reading.Open) (spelled : Letters switches letters)
    (value : String) :
    reading.argument ("-" ++ String.ofList letters ++ "c" ++ value) =
      reading.advance (switches.map .switch) >>= fun behind =>
        behind.config (attachedTo value.toList) := by
  have htext : "c" ++ value = String.ofList ('c' :: value.toList) := by
    rw [String.ofList_cons, String.ofList_toList]
    rfl
  have hbegins : cluster ('c' :: value.toList) reading =
      reading.advance [] >>= cluster ('c' :: value.toList) := config_begins h _
  rw [String.append_assoc, htext, argument_cluster h spelled (by decide),
    cluster_append h spelled _ (.inr hbegins)]
  rfl

/-- Behind the name of `config`, a value can stand only behind `=`. -/
theorem argument_config (h : reading.Open) {value : List Char}
    (attached : value.head?.all (· == '=')) :
    reading.argument ("--config" ++ String.ofList value) = reading.config (attachedTo value) := by
  have hname : "--config" ++ String.ofList value =
      "--" ++ String.ofList ("config".toList ++ value) := by
    rw [String.ofList_append, String.ofList_toList, ← String.append_assoc]
    rfl
  rw [hname, long_of_argument h (by simp)]
  cases value with
  | nil => rfl
  | cons c rest =>
    obtain rfl : c = '=' := by simpa using attached
    rfl

theorem argument_value (awaits : reading.pending = .valueAwaited) (goesOn : reading.ended = false)
    {value : String} (plain : value.toList.head? = some '-' → value = "-") :
    reading.argument value = .ok { reading with pending := .value value } := by
  have hplain : reading.plain value = .ok { reading with pending := .value value } := by
    simp [Reading.plain, awaits, goesOn]
  have hdashed {c : Char} {rest : List Char} (htext : value.toList = '-' :: c :: rest) : False := by
    obtain rfl := plain (by rw [htext]; rfl)
    cases htext
  rw [← hplain, Reading.argument, goesOn]
  split
  · next h => cases h
  · split
    · next htext => exact (hdashed htext).elim
    · next htext => exact (hdashed htext).elim
    · next htext => exact (hdashed htext).elim
    · rfl

/-! ### Whole lists of arguments -/

/-- An argument with the value of `config` behind it. -/
theorem argument_head (h : reading.Open) {head : String} (spelled : Head switches head)
    (value : List Char) (attached : value.head?.all (· == '=')) :
    reading.argument (head ++ String.ofList value) =
      reading.advance (switches.map .switch) >>= fun behind =>
        behind.config (attachedTo value) := by
  cases spelled with
  | name => rw [argument_config h attached, config_begins h, List.map_nil]
  | letter spelled =>
    rw [argument_letter h spelled, String.toList_ofList]

theorem advance_config (value : String) :
    (reading.advance (switches.map .switch) >>= fun behind => behind.config (some value)) =
      reading.advance (switches.map .switch ++ [.config value]) := by
  rw [advance_congr (g := fun behind => behind.advance [.config value] >>= pure) fun options => by
      rw [bind_pure]; exact config_value_eq (open_recorded options) value,
    advance_advance, bind_pure]

/-- What goes on with choices goes on with the choices of a piece in front of it. -/
theorem piece_read {β : Type} {front choices : List Choice} {first : List String}
    (piece : Piece front first) (h : reading.Open) {next : Reading → Except Stop β}
    {finish : Options → Except Stop β}
    (behind : ∀ reading : Reading, reading.Open →
      next reading = reading.total choices >>= finish) :
    first.foldlM Reading.argument reading >>= next =
      reading.total (front ++ choices) >>= finish := by
  -- All pieces but one leave nothing owed.
  have hrecorded {argument : String} (hread : reading.argument argument = reading.advance front) :
      [argument].foldlM Reading.argument reading >>= next =
        reading.total (front ++ choices) >>= finish := by
    rw [List.foldlM_cons, hread, bind_assoc]
    simp only [List.foldlM_nil, pure_bind]
    rw [advance_congr (g := fun behind => behind.total choices >>= finish) fun options =>
      behind (recorded options) (open_recorded options), advance_bind, total_append, bind_assoc]
  cases piece with
  | name switch => exact hrecorded (argument_name h switch)
  | letters spelled nonempty => exact hrecorded (argument_letters h spelled nonempty)
  | @apart switches head value spelled nonempty plain =>
    have hhead := argument_head h spelled [] rfl
    rw [String.ofList_nil, String.append_empty] at hhead
    have howing (options : Options) :
        ((recorded options).config none >>= fun behind => behind.argument value >>= next) =
          (recorded options).total (.config value :: choices) >>= finish := by
      show Reading.argument { options, pending := .valueAwaited } value >>= next = _
      rw [argument_value rfl rfl plain]
      exact behind { options, pending := .value value } ⟨rfl, nofun⟩
    simp only [List.foldlM_cons, List.foldlM_nil, hhead, bind_assoc, pure_bind]
    rw [advance_congr
        (g := fun behind => behind.total (.config value :: choices) >>= finish) howing,
      advance_bind, ← bind_assoc, ← total_append, List.append_assoc, List.singleton_append]
  | @attached switches head value spelled nonempty =>
    have hread := argument_head h spelled ('=' :: value.toList) rfl
    refine hrecorded ?_
    rw [← advance_config]
    simpa [attachedTo, String.append_assoc] using hread
  | @direct switches letters value spelled nonempty plain =>
    have hattached : attachedTo value.toList = some value := by
      obtain ⟨c, rest, htext⟩ := List.exists_cons_of_ne_nil
        (fun hnil => nonempty (String.toList_eq_nil_iff.1 hnil) : value.toList ≠ [])
      rw [htext] at plain
      rw [htext, attachedTo_direct (by simpa using plain), ← htext, String.ofList_toList]
    refine hrecorded ?_
    rw [argument_letter h spelled, hattached, advance_config]

/-- The end of the arguments, with or without two dashes before it, records what is owed. -/
theorem settle_options (reading : Reading) (free : reading.pending ≠ .valueAwaited) :
    (reading.settle >>= fun settled => pure settled.options) = reading.total [] := by
  obtain ⟨options, pending, ended⟩ := reading
  cases pending with
  | nothing => rfl
  | valueAwaited => exact absurd rfl free
  | value text =>
    show _ = options.setConfig text >>= pure
    rw [bind_pure, settle, bind_assoc]
    exact bind_pure _

/-- Reading arguments that spell choices comes to these choices. -/
theorem read_spelled {choices : List Choice} {arguments : List String}
    (spelled : Spells choices arguments) (h : reading.Open) :
    (arguments.foldlM Reading.argument reading >>= fun behind =>
      behind.settle >>= fun settled => pure settled.options) = reading.total choices := by
  induction spelled generalizing reading with
  | nothing => exact settle_options reading h.free
  | dashes =>
    have hdashes : reading.argument "--" = .ok { reading with ended := true } := by
      simp [Reading.argument, h.goesOn]
    rw [List.foldlM_cons, hdashes]
    exact settle_options { reading with ended := true } h.free
  | @cons front first choices rest piece spelled ih =>
    rw [List.foldlM_append, bind_assoc, ← bind_pure (reading.total _)]
    exact piece_read piece h fun reading h => (ih h).trans (bind_pure _).symm

/-- As long as the options have not ended, what goes on with choices goes on with those that are
spelled in front of it. -/
theorem spelled_read {β : Type} {front choices : List Choice} {arguments : List String}
    (spelled : Spells front arguments) (goesOn : "--" ∉ arguments) (h : reading.Open)
    {next : Reading → Except Stop β} {finish : Options → Except Stop β}
    (behind : ∀ reading : Reading, reading.Open →
      next reading = reading.total choices >>= finish) :
    arguments.foldlM Reading.argument reading >>= next =
      reading.total (front ++ choices) >>= finish := by
  induction spelled generalizing reading with
  | nothing => exact behind reading h
  | dashes => exact absurd (List.mem_singleton.2 rfl) goesOn
  | @cons first argument front rest piece spelled ih =>
    rw [List.mem_append, not_or] at goesOn
    rw [List.foldlM_append, bind_assoc, List.append_assoc]
    exact piece_read piece h fun reading h => ih goesOn.2 h

end Reading

/-- Arguments that spell choices are read as the choices in their order. -/
theorem Options.parse_spelled {choices : List Choice} {arguments : List String}
    (spelled : Spells choices arguments) :
    Options.parse arguments = choices.foldlM Options.choose {} :=
  Reading.read_spelled spelled (Reading.open_recorded {})

end SgxActivation.CommandLine
