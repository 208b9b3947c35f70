import SgxActivation.Filesystem.Lookup

/-!
# System calls

What the owner's programs ask of a file tree: to inspect a path, to open one for
reading or for writing, to write to an open file once, to bring what was written
to the disk, and to remove an entry.

* `openForReading` admits directories, though nothing can be read from them.
* `openForWriting` creates a missing file and empties an existing one.
* `writeOnce` stops short at the size limit, and fails when not even one byte
  fits.
* `unlink` removes an entry, of a link the link itself.
-/

namespace SgxActivation.Filesystem.Files

/-- Whether a node may be opened for reading. -/
def checkRead (node : Option Node) : Except SystemError Unit :=
  match node with
  | some (.directory mode) | some (.file mode _) =>
    if Caller.owner.mayRead mode then .ok () else .error .accessDenied
  | _ => .ok ()

/-- Opens a path for reading. -/
def openForReading (files : Files) (path : Path) : Except SystemError Location := do
  let location ← files.locate .owner path
  checkRead (files.node? location)
  return location

/-- Reads up to `length` bytes from the front of an open node. -/
def readFront (files : Files) (location : Location) (length : Nat) :
    Except SystemError Bytes :=
  if length = 0 then .ok []
  else
    match files.node? location with
    | some (.file _ bytes) => .ok (bytes.take length)
    | some (.device .null) => .ok []
    | some (.device _) => .ok (List.replicate length 0)
    | some (.directory _) => .error .isDirectory
    | _ => .ok []

/-- Reads all that a path leads to. The devices are taken to be empty. -/
def readWhole (files : Files) (path : Path) : Except SystemError Bytes := do
  let location ← files.openForReading path
  if files.isDirectory location then throw .isDirectory
  return (files.content? location).getD []

/-- Creates an empty file where there is none. -/
def createFile (files : Files) (directory : Location) (name : String) :
    Except SystemError (Location × Files) :=
  match files.node? directory with
  | some (.directory mode) =>
    if Caller.owner.mayWrite mode && Caller.owner.maySearch mode then
      .ok (directory ++ [name], files.put (directory ++ [name]) (.file .newFile []))
    else .error .accessDenied
  | _ => .error .notDirectory

/-- Opens a node for writing, which empties a regular file. -/
def truncate (files : Files) (location : Location) : Except SystemError Files :=
  match files.node? location with
  | some (.file mode _) =>
    if Caller.owner.mayWrite mode then .ok (files.fill location []) else .error .accessDenied
  | some (.directory _) => .error .isDirectory
  | _ => .ok files

/-- Opens a path for writing, and says what it leads to. -/
def openForWriting (files : Files) (path : Path) : Except SystemError (Location × Files) := do
  match ← files.find .owner .create path with
  | .node location => return (location, ← files.truncate location)
  | .vacancy directory name => files.createFile directory name

/-- How many bytes of `count` go into an open node in one call. The full device
refuses even a call without bytes; a regular file takes such a call at any size. -/
def writeOnce (files : Files) (location : Location) (count : Nat) : Except SystemError Nat :=
  match files.node? location, files.sizeLimit with
  | some (.device .full), _ => .error .noSpace
  | some (.file ..), some limit =>
    if limit = 0 && count ≠ 0 then .error .fileTooLarge else .ok (min limit count)
  | _, _ => .ok count

/-- Brings what was written to the disk, which devices refuse. -/
def sync (files : Files) (location : Location) : Except SystemError Unit :=
  match files.node? location with
  | some (.device _) => .error .invalidArgument
  | _ => .ok ()

/-- Takes an entry out of its directory. -/
def removeEntry (files : Files) (location : Location) : Except SystemError Files := do
  let mode ← files.requireDirectory location.dropLast
  if Caller.owner.mayWrite mode && Caller.owner.maySearch mode then
    match files.node? location with
    | some (.directory _) => throw .isDirectory
    | some _ => return files.drop location
    | none => throw .noEntry
  else throw .accessDenied

/-- Removes the entry that a path names. A path that ends in a dot or a slash
names no entry. -/
def unlink (files : Files) (path : Path) : Except SystemError Files := do
  let route ← Route.ofPath path
  let parts := route.parts.filter (· ≠ .directory)
  let found ← files.followRoute .owner .remove { route with parts }
  match parts.getLast?, found with
  | some (.name _), .node location =>
    if parts.length = route.parts.length then files.removeEntry location
    else if files.isDirectory location then throw .isDirectory
    else throw .notDirectory
  | some (.name _), .vacancy .. => throw .noEntry
  | _, _ => throw .isDirectory

end SgxActivation.Filesystem.Files
