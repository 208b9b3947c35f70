import SgxActivation.Machine
import SgxActivation.Table

/-!
# Scripted stores

A store held in memory, whose answers can be bent path by path. Paths are
compared by their text. An **entry** says what exists at a path, if anything,
and carries up to three rules:

* probes give the listed outcomes in turn, and the last one for ever after;
* every read gives a fixed result;
* every write fails in a fixed way and changes nothing.

An entry without rules is honest: a probe tells existence, a read gives the
front of a long enough file, and a write puts the bytes in place. The store
notes no events.
-/

namespace SgxActivation.Scripted

/-- What can exist at a path. -/
inductive Content where
  | directory
  | file (bytes : Bytes)
  deriving DecidableEq, Repr

/-- What exists at a path, and the rules that bend its answers. -/
structure Entry where
  content : Option Content := none
  probes : List Presence := []
  readRule : Option (Except Failure Bytes) := none
  writeRule : Option Failure := none

/-- The entries of a scripted store. -/
abbrev Entries := Table Path Entry

namespace Entry

/-- The outcome of a probe. -/
def presence (entry : Entry) : Presence :=
  match entry.probes with
  | outcome :: _ => outcome
  | [] => if entry.content.isSome then .present else .absent

/-- The entry after a probe; the last outcome of a list stays. -/
def probed (entry : Entry) : Entry :=
  match entry.probes with
  | _ :: next :: rest => { entry with probes := next :: rest }
  | _ => entry

/-- The first `length` bytes of a file that has as many. -/
def front? (entry : Entry) (length : Nat) : Option Bytes :=
  match entry.content with
  | some (.file bytes) => if length ≤ bytes.length then some (bytes.take length) else none
  | _ => none

end Entry

namespace Entries

/-- The entry at a path; where there is none, an honest one for nothing. -/
def entry (entries : Entries) (path : Path) : Entry := (entries.get? path).getD {}

/-- What exists at a path. -/
def content? (entries : Entries) (path : Path) : Option Content := (entries.entry path).content

/-- Answers a probe. -/
def probe (entries : Entries) (path : Path) : Reply Presence Entries :=
  match entries.get? path with
  | some entry => ⟨entry.presence, [], entries.insert path entry.probed⟩
  | none => ⟨.absent, [], entries⟩

/-- The result of a read. -/
def readResult (entries : Entries) (path : Path) (length : Nat) : Except Failure Bytes :=
  match (entries.entry path).readRule with
  | some result => result
  | none =>
    match (entries.entry path).front? length with
    | some bytes => .ok bytes
    | none => .error ⟨.unexpected, s!"{path.text}: cannot read {length} bytes"⟩

/-- Answers a read. -/
def read (entries : Entries) (path : Path) (length : Nat) :
    Reply (Except Failure Bytes) Entries :=
  ⟨entries.readResult path length, [], entries⟩

/-- Answers a write. -/
def write (entries : Entries) (path : Path) (bytes : Bytes) :
    Reply (Except Failure Unit) Entries :=
  let entry := entries.entry path
  match entry.writeRule with
  | some failure => ⟨.error failure, [], entries⟩
  | none => ⟨.ok (), [], entries.insert path { entry with content := some (.file bytes) }⟩

/-- What exists, as pairs of path and content, in the order of the path texts. -/
def contents (entries : Entries) : List (Path × Content) :=
  let existing := entries.keys.filterMap fun path =>
    (entries.content? path).map fun content => (path, content)
  existing.mergeSort fun a b => a.1.text ≤ b.1.text

end Entries

/-- The scripted store. -/
def store : Store Entries where
  probe path entries := entries.probe path
  read path length entries := entries.read path length
  write path bytes entries := entries.write path bytes

end SgxActivation.Scripted
