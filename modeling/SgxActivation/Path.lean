/-!
# Path texts

A path is kept exactly as it was given; nothing is normalised. Two questions
are asked of it here: whether it is **absolute**, that is, begins with a slash,
and what it becomes when a name is **joined** to it.
-/

namespace SgxActivation

/-- A path, as the text that names it. -/
structure Path where
  text : String
  deriving DecidableEq, Repr

namespace Path

/-- Whether no text is left. -/
def isEmpty (path : Path) : Bool := path.text.toList.isEmpty

/-- Absolute paths are those that begin with a slash. -/
def isAbsolute (path : Path) : Bool := path.text.toList.head? == some '/'

theorem isEmpty_of_isAbsolute {path : Path} (absolute : path.isAbsolute = true) :
    path.isEmpty = false := by
  unfold isAbsolute at absolute
  unfold isEmpty
  cases htext : path.text.toList with
  | nil => simp [htext] at absolute
  | cons c rest => rfl

/-- Whether a name put behind the text needs no slash in between. -/
def endsOpen (path : Path) : Bool :=
  path.isEmpty || path.text.toList.getLast? == some '/'

/-- The path of `name` inside `path`. An absolute name stands for itself; any
other follows the directory's text after one slash, which is left out when the
text is empty or already ends in a slash. -/
def join (path : Path) (name : String) : Path :=
  if (Path.mk name).isAbsolute then ⟨name⟩
  else if path.endsOpen then ⟨path.text ++ name⟩
  else ⟨path.text ++ "/" ++ name⟩

end Path

end SgxActivation
