import SgxActivation.CommandLine.Options
import SgxActivation.Text.Plain

/-!
# Usage

What is printed when arguments do not lead to a run: the help text, the version,
or what is wrong.
-/

namespace SgxActivation.CommandLine

/-- The name of the program. -/
def programName : String := "sgx-enable"

/-- The version of the program. -/
def programVersion : String := "0.1.0"

/-- What a process prints, and how it ends. -/
structure Printed where
  exitCode : Nat
  output : String := ""
  errors : String := ""
  deriving DecidableEq, Repr

/-- How the program is called. -/
def usageLine : String := "Usage: " ++ programName ++ " [OPTIONS]"

/-- What an option is for. -/
def Opt.purpose : Opt → String
  | .status => "Report the enabling status only"
  | .config => "Configuration file path"
  | .verbose => "Enable verbose logging"
  | .json => "Print the result as JSON"
  | .help => "Print help"
  | .version => "Print version"

/-- The line of an option in the help text. -/
def Opt.helpLine (opt : Opt) : String :=
  let start := match opt.letter? with
    | some c => String.ofList [' ', ' ', '-', c, ',', ' '] ++ opt.spelling
    | none => "      " ++ opt.spelling
  start ++ String.ofList (List.replicate (25 - start.length) ' ') ++ opt.purpose ++ "\n"

/-- The help text. -/
def helpText : String :=
  "Detect Intel SGX and perform the UEFI software enable\n\n" ++ usageLine ++ "\n\nOptions:\n" ++
    String.join (Opt.all.map Opt.helpLine)

/-- A part of a message that is set apart from the words around it, for terminals
in yellow. The sequence behind it also ends one that the part leaves open. -/
def setApart (part : String) : String := "\x1b[33m" ++ part ++ "\x1b[0m"

/-- A misuse in one sentence, for a terminal. -/
def Misuse.sentence : Misuse → String
  | .unknown argument => s!"unexpected argument '{setApart argument}' found"
  | .repeated opt => s!"the argument '{opt.spelling}' cannot be used multiple times"
  | .valueMissing opt => s!"a value is required for '{opt.spelling}' but none was supplied"
  | .valueUnwanted opt value =>
    s!"unexpected value '{setApart value}' for '{opt.spelling}' found; no more were expected"

/-- What a misuse prints where there is no terminal. -/
def Misuse.text (misuse : Misuse) : String :=
  Text.plain ("error: " ++ misuse.sentence ++ "\n\n" ++ usageLine ++
    "\n\nFor more information, try '--help'.\n")

/-- What is printed without a run. Only the version counts as success. -/
def Stop.printed : Stop → Printed
  | .help => { exitCode := 1, output := helpText }
  | .version => { exitCode := 0, output := programName ++ " " ++ programVersion ++ "\n" }
  | .misuse kind => { exitCode := 1, errors := kind.text }

end SgxActivation.CommandLine
