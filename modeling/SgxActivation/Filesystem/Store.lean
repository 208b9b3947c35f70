import SgxActivation.Filesystem.Calls
import SgxActivation.Machine

/-!
# Records in files

The store that keeps every record in a file of its own. A record is written by
one call, because the firmware takes a variable in one piece: the file is opened,
which creates or empties it, the bytes are handed over at once, and the file is
brought to the disk. If the call fails or stops short, what it left behind is
removed; a remnant that cannot be removed is warned about.

`writeRecord` leaves open how the call itself went, so that every outcome of it
can be spoken of; `write` fills in how it goes on the tree at hand.
-/

namespace SgxActivation.Filesystem

/-- How handing over a record's bytes went: the one write call, the flush after
it, and bringing the file to the disk. -/
structure Delivery where
  written : Except SystemError Nat
  flushed : Except SystemError Unit := .ok ()
  synced : Except SystemError Unit := .ok ()

namespace Files

/-- What a probe makes of a lookup. A missing entry, or a file where a directory
should be, means absence. -/
def presence (result : Except SystemError Location) : Presence :=
  match result with
  | .ok _ => .present
  | .error .noEntry | .error .notDirectory => .absent
  | .error .accessDenied => .denied
  | .error error => .failed error.text

/-- Probes a path, following links. -/
def probe (files : Files) (path : Path) : Reply Presence Files :=
  ⟨presence (files.locate .owner path), [], files⟩

/-- The failure of an operation on a path. -/
def failureAt (kind : Failure.Kind) (path : Path) (error : SystemError) : Failure :=
  ⟨kind, s!"{path.text}: {error.text}"⟩

/-- The failure of opening a path. -/
def openFailure (path : Path) (error : SystemError) : Failure :=
  failureAt (if error = .accessDenied then .noPrivilege else .unexpected) path error

/-- The record of `length` bytes at the front of an open node. -/
def recordAt (files : Files) (path : Path) (location : Location) (length : Nat) :
    Except Failure Bytes :=
  match files.readFront location length with
  | .error error => .error (failureAt .unexpected path error)
  | .ok bytes =>
    if bytes.length = length then .ok bytes
    else .error ⟨.unexpected, s!"{path.text}: record is shorter than {length} bytes"⟩

/-- Reads a record. -/
def read (files : Files) (path : Path) (length : Nat) : Reply (Except Failure Bytes) Files :=
  match files.openForReading path with
  | .error error => ⟨.error (openFailure path error), [.openFailed path error], files⟩
  | .ok location => ⟨files.recordAt path location length, [], files⟩

/-- Removes what a broken write left behind, and reports the write's failure. -/
def discard (files : Files) (path : Path) (failure : Failure) :
    Reply (Except Failure Unit) Files :=
  match files.unlink path with
  | .ok files => ⟨.error failure, [], files⟩
  | .error error => ⟨.error failure, [.remnantLeft path error], files⟩

/-- Ends a write that took the whole record. -/
def settle (files : Files) (path : Path) (bytes : Bytes) (delivery : Delivery) :
    Reply (Except Failure Unit) Files :=
  match delivery.flushed, delivery.synced with
  | .error error, _ => ⟨.error (failureAt .unexpected path error), [], files⟩
  | .ok (), .error error => ⟨.error (failureAt .unexpected path error), [], files⟩
  | .ok (), .ok () => ⟨.ok (), [.recordWritten path bytes.length], files⟩

/-- Hands a record over to an open node. -/
def handOver (files : Files) (path : Path) (location : Location) (bytes : Bytes)
    (delivery : Delivery) : Reply (Except Failure Unit) Files :=
  match delivery.written with
  | .error error => files.discard path (failureAt .unexpected path error)
  | .ok count =>
    let files := files.fill location (bytes.take count)
    if count = bytes.length then files.settle path bytes delivery
    else files.discard path
      ⟨.unexpected, s!"{path.text}: wrote {count} of {bytes.length} bytes"⟩

/-- Writes a record, of which `deliver` says how handing it over goes. -/
def writeRecord (deliver : Files → Location → Delivery) (files : Files) (path : Path)
    (bytes : Bytes) : Reply (Except Failure Unit) Files :=
  match files.openForWriting path with
  | .error error => ⟨.error (openFailure path error), [.openFailed path error], files⟩
  | .ok (location, opened) => opened.handOver path location bytes (deliver opened location)

/-- How handing over `count` bytes goes on this tree. -/
def delivery (count : Nat) (files : Files) (location : Location) : Delivery :=
  { written := files.writeOnce location count, synced := files.sync location }

/-- Writes a record. -/
def write (files : Files) (path : Path) (bytes : Bytes) : Reply (Except Failure Unit) Files :=
  files.writeRecord (delivery bytes.length) path bytes

end Files

/-- The store over a file tree. -/
def store : Store Files where
  probe path files := files.probe path
  read path length files := files.read path length
  write path bytes files := files.write path bytes

end SgxActivation.Filesystem
