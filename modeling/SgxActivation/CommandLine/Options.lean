import SgxActivation.Path

/-!
# Command-line options

There are four options that shape a run and two that end it at once. One of them,
`config`, takes a value; the others are **switches**. Options are spelled by
their name behind two dashes or by their letter behind one, and letters may stand
together in a cluster. The value of `config` is attached, by `=` to the name or
directly or by `=` to the letter, or it is the next argument, unless that begins
with a dash and is more than a dash. Two dashes alone end the options; what comes
after them is refused like everything that is no option.

A value that came as an argument of its own is only recorded when the next option
comes, or at the end. So an unknown argument behind it is told first, whatever is
wrong with the value.
-/

namespace SgxActivation.CommandLine

/-- The options. -/
inductive Opt where
  | status
  | config
  | verbose
  | json
  | help
  | version
  deriving DecidableEq, Repr

namespace Opt

/-- All options, in the order of the help text. -/
def all : List Opt := [.status, .config, .verbose, .json, .help, .version]

/-- The name that stands behind two dashes. -/
def name : Opt → String
  | .status => "status"
  | .config => "config"
  | .verbose => "verbose"
  | .json => "json"
  | .help => "help"
  | .version => "version"

/-- The letter that stands behind one dash. -/
def letter? : Opt → Option Char
  | .status => some 's'
  | .config => some 'c'
  | .verbose => some 'v'
  | .json => none
  | .help => some 'h'
  | .version => some 'V'

/-- The option with this name. -/
def ofName? (text : String) : Option Opt := all.find? (·.name == text)

/-- The option with this letter. -/
def ofLetter? (c : Char) : Option Opt := all.find? (·.letter? == some c)

/-- How an option is spelled in messages. -/
def spelling : Opt → String
  | .config => "--config <CONFIG>"
  | opt => "--" ++ opt.name

end Opt

/-- What an invocation asks for. -/
structure Options where
  statusOnly : Bool := false
  configPath : Option Path := none
  verbose : Bool := false
  json : Bool := false
  deriving DecidableEq, Repr

/-- What can be wrong with arguments. -/
inductive Misuse where
  | unknown (argument : String)
  | repeated (opt : Opt)
  | valueMissing (opt : Opt)
  | valueUnwanted (opt : Opt) (value : String)
  deriving DecidableEq, Repr

/-- Why arguments do not lead to a run. -/
inductive Stop where
  | help
  | version
  | misuse (misuse : Misuse)
  deriving DecidableEq, Repr

namespace Options

/-- Sets a switch, once. The two that end the invocation do so. -/
def set (options : Options) : Opt → Except Stop Options
  | .status =>
    if options.statusOnly then .error (.misuse (.repeated .status))
    else .ok { options with statusOnly := true }
  | .verbose =>
    if options.verbose then .error (.misuse (.repeated .verbose))
    else .ok { options with verbose := true }
  | .json =>
    if options.json then .error (.misuse (.repeated .json))
    else .ok { options with json := true }
  | .help => .error .help
  | .version => .error .version
  | .config => .error (.misuse (.valueMissing .config))

/-- Records the value of `config`, once. An empty value is none. -/
def setConfig (options : Options) (value : String) : Except Stop Options :=
  if options.configPath.isSome then .error (.misuse (.repeated .config))
  else if value.isEmpty then .error (.misuse (.valueMissing .config))
  else .ok { options with configPath := some ⟨value⟩ }

end Options

/-- A `config` that has not been recorded yet. -/
inductive Pending where
  | nothing
  /-- The option came without a value; the next argument may be it. -/
  | valueAwaited
  /-- The value came as an argument of its own. -/
  | value (text : String)
  deriving DecidableEq, Repr

/-- How far the arguments have been read. -/
structure Reading where
  options : Options := {}
  pending : Pending := .nothing
  /-- Two dashes have ended the options. -/
  ended : Bool := false

namespace Reading

/-- Records a pending `config`. -/
def settle (reading : Reading) : Except Stop Reading :=
  match reading.pending with
  | .nothing => .ok reading
  | .valueAwaited => .error (.misuse (.valueMissing .config))
  | .value text => do
    let options ← reading.options.setConfig text
    return { reading with options, pending := .nothing }

/-- Reads a switch. -/
def switch (reading : Reading) (opt : Opt) : Except Stop Reading := do
  let reading ← reading.settle
  let options ← reading.options.set opt
  return { reading with options }

/-- Reads `config` with its value attached, or awaits the value. -/
def config (reading : Reading) (attached : Option String) : Except Stop Reading := do
  let reading ← reading.settle
  match attached with
  | none => return { reading with pending := .valueAwaited }
  | some value => do
    let options ← reading.options.setConfig value
    return { reading with options }

/-- The value attached to a letter by what follows it in its cluster. -/
def attachedTo : List Char → Option String
  | [] => none
  | '=' :: value => some (String.ofList value)
  | value => some (String.ofList value)

/-- Reads the letters of a cluster. -/
def cluster : List Char → Reading → Except Stop Reading
  | [], reading => .ok reading
  | c :: rest, reading =>
    match Opt.ofLetter? c with
    | none => .error (.misuse (.unknown (String.ofList ['-', c])))
    | some .config => reading.config (attachedTo rest)
    | some opt => do cluster rest (← reading.switch opt)

/-- Reads what stands behind two dashes. -/
def long (text : List Char) (reading : Reading) : Except Stop Reading :=
  let name := String.ofList (text.takeWhile (· != '='))
  let value := match text.dropWhile (· != '=') with
    | '=' :: value => some (String.ofList value)
    | _ => none
  match Opt.ofName? name, value with
  | none, _ => .error (.misuse (.unknown ("--" ++ name)))
  | some .config, value => reading.config value
  | some opt, some value => .error (.misuse (.valueUnwanted opt value))
  | some opt, none => reading.switch opt

/-- Reads an argument that is no option. -/
def plain (reading : Reading) (argument : String) : Except Stop Reading :=
  if reading.pending = .valueAwaited && !reading.ended then
    .ok { reading with pending := .value argument }
  else .error (.misuse (.unknown argument))

/-- Reads one argument. -/
def argument (reading : Reading) (argument : String) : Except Stop Reading :=
  if reading.ended then reading.plain argument
  else
    match argument.toList with
    | ['-', '-'] => .ok { reading with ended := true }
    | '-' :: '-' :: rest => reading.long rest
    | '-' :: c :: rest => reading.cluster (c :: rest)
    | _ => reading.plain argument

end Reading

/-- The options that arguments ask for, or why there is no run. -/
def Options.parse (arguments : List String) : Except Stop Options := do
  let reading ← arguments.foldlM Reading.argument {}
  return (← reading.settle).options

end SgxActivation.CommandLine
