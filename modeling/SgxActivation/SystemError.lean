/-!
# System errors

Why the operating system refuses a request on a path. All but one come from the
system itself and carry its number; a path that holds a NUL character is refused
before the system is asked.
-/

namespace SgxActivation

/-- A refused request on a path. -/
inductive SystemError where
  | noEntry
  | accessDenied
  | notDirectory
  | isDirectory
  | invalidArgument
  | fileTooLarge
  | noSpace
  | nameTooLong
  | tooManyLinks
  | nulInPath
  /-- An error that plays no part of its own here. -/
  | other (number : Nat) (words : String)
  deriving DecidableEq, Repr

namespace SystemError

/-- The system's number for an error, if the error is the system's. -/
def number? : SystemError → Option Nat
  | .noEntry => some 2
  | .accessDenied => some 13
  | .notDirectory => some 20
  | .isDirectory => some 21
  | .invalidArgument => some 22
  | .fileTooLarge => some 27
  | .noSpace => some 28
  | .nameTooLong => some 36
  | .tooManyLinks => some 40
  | .nulInPath => none
  | .other number _ => some number

/-- The words for an error. -/
def words : SystemError → String
  | .noEntry => "No such file or directory"
  | .accessDenied => "Permission denied"
  | .notDirectory => "Not a directory"
  | .isDirectory => "Is a directory"
  | .invalidArgument => "Invalid argument"
  | .fileTooLarge => "File too large"
  | .noSpace => "No space left on device"
  | .nameTooLong => "File name too long"
  | .tooManyLinks => "Too many levels of symbolic links"
  | .nulInPath => "file name contained an unexpected NUL byte"
  | .other _ words => words

/-- The errors that play a part here. -/
def known : List SystemError :=
  [.noEntry, .accessDenied, .notDirectory, .isDirectory, .invalidArgument, .fileTooLarge,
    .noSpace, .nameTooLong, .tooManyLinks]

/-- The error of this number, with `words` for one that plays no part here. -/
def ofNumber (number : Nat) (words : String) : SystemError :=
  (known.find? (·.number? == some number)).getD (.other number words)

/-- The text of an error: its words, and its number if it has one. -/
def text (error : SystemError) : String :=
  match error.number? with
  | some number => s!"{error.words} (os error {number})"
  | none => error.words

end SystemError

end SgxActivation
