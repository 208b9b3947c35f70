import SgxActivation.Filesystem.Node
import SgxActivation.Filesystem.Route

/-!
# Finding nodes

Following a route from a directory. Each part but a demand for a directory needs
the directory reached so far to be searchable. Links met on the way are followed,
at most `linkLimit` of them in one lookup: the parts of the target take the place
of the link, from the root if the target is absolute.

The end of a route is treated by **purpose**. To inspect or to create, a link at
the end is followed as well; to remove, it is itself what is found. To create, a
name with a slash behind it is refused before it is looked up, and a missing
last name is no error: what is found is then a **vacancy**.
-/

namespace SgxActivation.Filesystem

/-- What a lookup is for. -/
inductive Purpose where
  | inspect
  | create
  | remove
  deriving DecidableEq, Repr

/-- Where a lookup ends. -/
inductive Found where
  /-- At a node. -/
  | node (location : Location)
  /-- In a directory without an entry of the last name. -/
  | vacancy (directory : Location) (name : String)
  deriving DecidableEq, Repr

/-- How many links may be followed in one lookup. -/
def linkLimit : Nat := 40

/-- Who looks: the owner, whom the permission bits bind, or an administrator,
whom they do not. -/
inductive Caller where
  | owner
  | administrator
  deriving DecidableEq, Repr

namespace Caller

/-- Whether this caller may read a node with these bits. -/
def mayRead (caller : Caller) (mode : Mode) : Bool := caller == .administrator || mode.readable

/-- Whether this caller may write to a node with these bits. -/
def mayWrite (caller : Caller) (mode : Mode) : Bool := caller == .administrator || mode.writable

/-- Whether this caller may look up names in a directory with these bits. -/
def maySearch (caller : Caller) (mode : Mode) : Bool :=
  caller == .administrator || mode.searchable

end Caller

namespace Files

/-- The directory at a location has to be there. -/
def requireDirectory (files : Files) (location : Location) : Except SystemError Mode :=
  match files.node? location with
  | some (.directory mode) => .ok mode
  | _ => .error .notDirectory

/-- The directory at a location has to be there and searchable. -/
def requireSearch (files : Files) (caller : Caller) (location : Location) :
    Except SystemError Unit := do
  let mode ← files.requireDirectory location
  if caller.maySearch mode then return else throw .accessDenied

/-- Whether only demands for a directory are left. -/
def onlyDemands (parts : List Part) : Bool := parts.all (· == .directory)

/-- Follows a route up to the next link that has to be followed, which is left
to `follow`. -/
def walkWith (files : Files) (caller : Caller) (purpose : Purpose)
    (follow : Location → List Part → Except SystemError Found) :
    Location → List Part → Except SystemError Found
  | location, [] => .ok (.node location)
  | location, .directory :: rest => do
    let _ ← files.requireDirectory location
    walkWith files caller purpose follow location rest
  | location, .here :: rest => do
    files.requireSearch caller location
    walkWith files caller purpose follow location rest
  | location, .above :: rest => do
    files.requireSearch caller location
    walkWith files caller purpose follow location.dropLast rest
  | location, .name name :: rest => do
    files.requireSearch caller location
    if purpose = .create && !rest.isEmpty && onlyDemands rest then
      throw .isDirectory
    if Route.nameLimit < name.utf8ByteSize then
      throw .nameTooLong
    match files.node? (location ++ [name]) with
    | none => if rest.isEmpty then return .vacancy location name else throw .noEntry
    | some (.link target) =>
      if purpose = .remove && rest.isEmpty then return .node (location ++ [name])
      let route := Route.ofText target
      follow (if route.absolute then [] else location) (route.parts ++ rest)
    | some _ => walkWith files caller purpose follow (location ++ [name]) rest

/-- Follows a route over at most `links` links. -/
def walk (files : Files) (caller : Caller) (purpose : Purpose) :
    (links : Nat) → Location → List Part → Except SystemError Found
  | 0 => walkWith files caller purpose fun _ _ => .error .tooManyLinks
  | links + 1 => walkWith files caller purpose (walk files caller purpose links)

/-- Follows a route from its start. -/
def followRoute (files : Files) (caller : Caller) (purpose : Purpose) (route : Route) :
    Except SystemError Found :=
  files.walk caller purpose linkLimit (if route.absolute then [] else files.workingDirectory)
    route.parts

/-- Finds what a path leads to. -/
def find (files : Files) (caller : Caller) (purpose : Purpose) (path : Path) :
    Except SystemError Found := do
  let route ← Route.ofPath path
  files.followRoute caller purpose route

/-- Finds the node that a path leads to, which has to be there. -/
def locate (files : Files) (caller : Caller) (path : Path) : Except SystemError Location := do
  match ← files.find caller .inspect path with
  | .node location => return location
  | .vacancy .. => throw .noEntry

end Files

end SgxActivation.Filesystem
