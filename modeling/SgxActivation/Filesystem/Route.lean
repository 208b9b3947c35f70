import SgxActivation.Path
import SgxActivation.SystemError

/-!
# Routes

How the text of a path, or the target of a link, is taken apart: where it
starts, and the **parts** to follow one by one. Repeated slashes count once. A
slash at the end adds a last part, which demands that a directory has been
reached.

A path is refused before any part is followed if it holds a NUL character, is
empty, or has `pathLimit` bytes or more.
-/

namespace SgxActivation.Filesystem

/-- One part of a route. -/
inductive Part where
  /-- The entry of this name. -/
  | name (name : String)
  /-- The directory itself. -/
  | here
  /-- The directory above. -/
  | above
  /-- Nothing to follow, but this has to be a directory. -/
  | directory
  deriving DecidableEq, Repr

/-- Where a path starts and the parts to follow. -/
structure Route where
  absolute : Bool
  parts : List Part
  deriving DecidableEq, Repr

namespace Route

/-- The pieces of a text between slashes, empty ones included. -/
def pieces : List Char → List (List Char)
  | [] => [[]]
  | c :: rest =>
    if c = '/' then [] :: pieces rest
    else
      match pieces rest with
      | first :: others => (c :: first) :: others
      | [] => [[c]]

/-- The part that a piece stands for. -/
def part (piece : List Char) : Part :=
  match piece with
  | ['.'] => .here
  | ['.', '.'] => .above
  | _ => .name (String.ofList piece)

/-- The parts of a text, without regard to a slash at its end. -/
def innerParts (text : List Char) : List Part :=
  ((pieces text).filter (!·.isEmpty)).map part

/-- Whether a slash at the end demands a directory; a text of slashes alone
names the root, which is one. -/
def demandsDirectory (text : List Char) : Bool :=
  text.getLast? == some '/' && !(innerParts text).isEmpty

/-- Takes a text apart. -/
def ofText (text : String) : Route :=
  let cs := text.toList
  ⟨cs.head? == some '/',
    innerParts cs ++ if demandsDirectory cs then [.directory] else []⟩

/-- How many bytes are too many for a path. -/
def pathLimit : Nat := 4096

/-- How many bytes a name may have. -/
def nameLimit : Nat := 255

/-- Takes a path apart, unless it is refused as a whole. -/
def ofPath (path : Path) : Except SystemError Route :=
  if path.text.toList.contains '\x00' then .error .nulInPath
  else if path.isEmpty then .error .noEntry
  else if pathLimit ≤ path.text.utf8ByteSize then .error .nameTooLong
  else .ok (ofText path.text)

end Route

end SgxActivation.Filesystem
