import SgxActivation.Record
import SgxActivation.Table

/-!
# File trees

A file tree is a table from **locations** to **nodes**. A location is the list
of names from the root down, free of links and dots, so that each node has one
location. A node is a directory or a regular file, each with its permission
bits, or a symbolic link, or one of three devices.

Programs run as the owner of everything, so of the permission bits only the
owner's count: reading, writing and, for directories, searching.
-/

namespace SgxActivation.Filesystem

/-- The names from the root down to a node. -/
abbrev Location := List String

/-- Permission bits. -/
structure Mode where
  bits : Nat
  deriving DecidableEq, Repr

namespace Mode

/-- The owner may read. -/
def readable (mode : Mode) : Bool := mode.bits.testBit 8

/-- The owner may write. -/
def writable (mode : Mode) : Bool := mode.bits.testBit 7

/-- The owner may search, which only means something for a directory. -/
def searchable (mode : Mode) : Bool := mode.bits.testBit 6

/-- The bits of a new file. -/
def newFile : Mode := ⟨0o644⟩

/-- The bits of a new directory. -/
def newDirectory : Mode := ⟨0o755⟩

end Mode

/-- The devices that a link may lead to. -/
inductive Device where
  /-- Reads as zeros and has no room for anything. -/
  | full
  /-- Reads as empty and takes everything. -/
  | null
  /-- Reads as zeros and takes everything. -/
  | zero
  deriving DecidableEq, Repr

/-- What is at a location. -/
inductive Node where
  | directory (mode : Mode)
  | file (mode : Mode) (bytes : Bytes)
  | link (target : String)
  | device (device : Device)
  deriving DecidableEq, Repr

/-- A file tree, with the directory that relative paths start from and the size
beyond which no file may grow. -/
structure Files where
  nodes : Table Location Node := {}
  workingDirectory : Location := []
  sizeLimit : Option Nat := none

namespace Files

/-- The node at a location. -/
def node? (files : Files) (location : Location) : Option Node := files.nodes.get? location

/-- Puts a node at a location. -/
def put (files : Files) (location : Location) (node : Node) : Files :=
  { files with nodes := files.nodes.insert location node }

/-- Takes away the node at a location. -/
def drop (files : Files) (location : Location) : Files :=
  { files with nodes := files.nodes.erase location }

/-- The bytes of a regular file. -/
def content? (files : Files) (location : Location) : Option Bytes :=
  match files.node? location with
  | some (.file _ bytes) => some bytes
  | _ => none

/-- Whether there is a directory at a location. -/
def isDirectory (files : Files) (location : Location) : Bool :=
  match files.node? location with
  | some (.directory _) => true
  | _ => false

/-- Replaces the bytes of a regular file; anything else is left alone. -/
def fill (files : Files) (location : Location) (bytes : Bytes) : Files :=
  match files.node? location with
  | some (.file mode _) => files.put location (.file mode bytes)
  | _ => files

theorem node?_put (files : Files) (location other : Location) (node : Node) :
    (files.put location node).node? other =
      if other = location then some node else files.node? other :=
  files.nodes.get?_insert location other node

theorem node?_drop (files : Files) (location other : Location) :
    (files.drop location).node? other =
      if other = location then none else files.node? other :=
  files.nodes.get?_erase location other

end Files

end SgxActivation.Filesystem
