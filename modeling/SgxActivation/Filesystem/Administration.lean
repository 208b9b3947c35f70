import SgxActivation.Filesystem.Calls

/-!
# Administration

What an administrator does to a file tree, without regard to permission bits:
making directories, files and links, changing permission bits and removing.
Something that cannot be done is left undone. Listing what is below a directory,
by contrast, shows what the owner may see: no entries of a directory that may not
be read and searched, and no bytes of a file that may not be read.
-/

namespace SgxActivation.Filesystem

/-- A node as the owner sees it: a file that may not be read looks empty. -/
def Node.seen : Node → Node
  | .file mode bytes => .file mode (if Caller.owner.mayRead mode then bytes else [])
  | node => node

namespace Files

/-- Makes sure that a route leads to a directory whose last step may be missing. -/
def makeStep (files : Files) (route : Route) : Files :=
  match files.followRoute .administrator .inspect route with
  | .ok (.vacancy directory name) => files.put (directory ++ [name]) (.directory .newDirectory)
  | _ => files

/-- Makes sure that a route leads to a directory, step by step. -/
def makeRoute (files : Files) (route : Route) : Files :=
  (List.range route.parts.length).foldl
    (fun files i => files.makeStep { route with parts := route.parts.take (i + 1) }) files

/-- Makes a directory and all that are missing above it. -/
def makeDirectory (files : Files) (path : Path) : Files :=
  files.makeRoute (Route.ofText path.text)

/-- Makes the directories above the last part of a path. -/
def makeParents (files : Files) (path : Path) : Files :=
  let route := Route.ofText path.text
  files.makeRoute { route with parts := route.parts.dropLast }

/-- Makes a file with these bytes, or replaces those of one that is there. -/
def makeFile (files : Files) (path : Path) (bytes : Bytes) : Files :=
  let files := files.makeParents path
  match files.find .administrator .create path with
  | .ok (.node location) => files.fill location bytes
  | .ok (.vacancy directory name) => files.put (directory ++ [name]) (.file .newFile bytes)
  | .error _ => files

/-- Makes a link where nothing is. -/
def makeLink (files : Files) (path : Path) (target : String) : Files :=
  let files := files.makeParents path
  match files.find .administrator .remove path with
  | .ok (.vacancy directory name) => files.put (directory ++ [name]) (.link target)
  | _ => files

/-- Changes the permission bits of what a path leads to. -/
def changeMode (files : Files) (path : Path) (mode : Mode) : Files :=
  match files.locate .administrator path with
  | .error _ => files
  | .ok location =>
    match files.node? location with
    | some (.directory _) => files.put location (.directory mode)
    | some (.file _ bytes) => files.put location (.file mode bytes)
    | _ => files

/-- Removes what a path names: a link itself, a directory with all it holds. -/
def removeTree (files : Files) (path : Path) : Files :=
  match files.find .administrator .remove path with
  | .ok (.node location) =>
    { files with nodes := ⟨files.nodes.pairs.filter fun pair => !location.isPrefixOf pair.1⟩ }
  | _ => files

/-- Limits the size of files from now on. -/
def limitSize (files : Files) (limit : Option Nat) : Files := { files with sizeLimit := limit }

/-- Whether the owner sees the entries of the directory at a location. -/
def showsEntries (files : Files) (location : Location) : Bool :=
  match files.node? location with
  | some (.directory mode) => Caller.owner.mayRead mode && Caller.owner.maySearch mode
  | _ => false

/-- Whether the owner who looks through a directory comes upon a location, because
it is below the directory and every directory on the way shows its entries. -/
def comesUpon (files : Files) (directory location : Location) : Bool :=
  directory.isPrefixOf location && directory.length < location.length &&
    (List.range' directory.length (location.length - directory.length)).all fun n =>
      files.showsEntries (location.take n)

/-- Everything that the owner sees below a directory, as pairs of the path from
there and the node, in the order of the path texts. -/
def listing (files : Files) (directory : Location) : List (String × Node) :=
  let below := files.nodes.keys.filterMap fun location =>
    if files.comesUpon directory location then
      (files.node? location).map fun node =>
        ("/" ++ "/".intercalate (location.drop directory.length), node.seen)
    else none
  below.mergeSort fun a b => a.1 ≤ b.1

end Files

end SgxActivation.Filesystem
