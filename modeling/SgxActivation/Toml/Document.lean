import SgxActivation.Toml.Value

/-!
# Building TOML tables

The **statements** of a document open tables by headers and assign values to
dotted names. They are carried out on a tree whose tables remember how they came
about, for that decides what may still be added to them:

* an **implied** table is one that a longer header passed through; a header may
  still open it, once;
* a **dotted** table came from a dotted name; only dotted names add to it;
* a **declared** table was opened by a header, or is the document itself;
* an array of tables grows by one table at each of its headers, and names that
  pass through it mean its last table.

Values, tables between braces among them, are closed. `build` carries out a
whole document, and `inlineTable` builds what stands between braces, by the
same rules with no headers. What the tables remember is forgotten in the end.
-/

namespace SgxActivation.Toml

/-- A statement of a document. -/
inductive Statement where
  /-- Opens the table of this name. -/
  | header (path : List String)
  /-- Opens a new table at the end of the array of this name. -/
  | arrayHeader (path : List String)
  /-- Assigns a value to a dotted name within the open table. -/
  | assign (path : List String) (value : Value)

/-- How a table came about. -/
inductive Origin where
  | implied
  | dotted
  | declared
  deriving DecidableEq, Repr

/-- A tree under construction. -/
inductive Node where
  | closed (value : Value)
  | table (origin : Origin) (entries : List (String × Node))
  | tables (items : List (List (String × Node)))

namespace Node

/-- The entries of a table under construction. -/
abbrev Entries := List (String × Node)

/-- The node under a name. -/
def find? (name : String) : Entries → Option Node
  | [] => none
  | (other, node) :: rest => if other = name then some node else find? name rest

/-- Puts a node under a name, in place of any other. -/
def put (name : String) (node : Node) : Entries → Entries
  | [] => [(name, node)]
  | (other, old) :: rest =>
    if other = name then (name, node) :: rest else (other, old) :: put name node rest

/-- Changes the last of several tables. -/
def changeLast (change : Entries → Option Entries) :
    List Entries → Option (List Entries)
  | [] => none
  | [last] => do return [← change last]
  | first :: rest => do return first :: (← changeLast change rest)

/-- Changes the table that a name path leads to, `origin` being that of the
starting table. Tables that are missing come about as `enter` says; those there
must pass `open?`. -/
def changeAt (enter : Origin) (open? : Origin → Bool)
    (change : Origin → Entries → Option Entries) :
    (path : List String) → (origin : Origin) → Entries → Option Entries
  | [], origin, entries => change origin entries
  | name :: path, _, entries =>
    match find? name entries with
    | none => do
      return put name (.table enter (← changeAt enter open? change path enter [])) entries
    | some (.table origin inner) =>
      if open? origin then do
        let inner ← changeAt enter open? change path origin inner
        return put name (.table origin inner) entries
      else none
    | some (.tables items) => do
      let items ← changeLast (changeAt enter open? change path .declared) items
      return put name (.tables items) entries
    | some (.closed _) => none

/-- Changes the table that the names of a header lead to. -/
def changeAtHeader (change : Entries → Option Entries) (path : List String)
    (entries : Entries) : Option Entries :=
  changeAt .implied (fun _ => true) (fun _ => change) path .declared entries

/-- Adds a value under a new name. -/
def add (name : String) (value : Value) (entries : Entries) : Option Entries :=
  match find? name entries with
  | none => some (put name (.closed value) entries)
  | some _ => none

/-- Assigns a value to a dotted name. All but its last part must lead through
tables that no header opened, and end in one that came from a dotted name. -/
def assign (path : List String) (value : Value) (entries : Entries) : Option Entries :=
  match path.getLast? with
  | none => none
  | some name =>
    changeAt .dotted (· ≠ .declared)
      (fun origin inner =>
        if (origin == .dotted) == path.dropLast.isEmpty then none
        else add name value inner)
      path.dropLast .declared entries

/-- Opens a table that is missing or implied. -/
def declare (name : String) (entries : Entries) : Option Entries :=
  match find? name entries with
  | none => some (put name (.table .declared []) entries)
  | some (.table .implied inner) => some (put name (.table .declared inner) entries)
  | some _ => none

/-- Adds an empty table to an array of tables, which may be missing. -/
def extend (name : String) (entries : Entries) : Option Entries :=
  match find? name entries with
  | none => some (put name (.tables [[]]) entries)
  | some (.tables items) => some (put name (.tables (items ++ [[]])) entries)
  | some _ => none

/-- Opens the table that a path names by `opening` its last part. -/
def openAt (opening : String → Entries → Option Entries) (path : List String)
    (entries : Entries) : Option Entries :=
  match path.getLast? with
  | none => none
  | some name => changeAtHeader (opening name) path.dropLast entries

mutual

/-- The value of a finished node. -/
def toValue : Node → Value
  | .closed value => value
  | .table _ entries => .table (toEntries entries)
  | .tables items => .array (toTables items)

/-- The entries of a finished table. -/
def toEntries : List (String × Node) → List (String × Value)
  | [] => []
  | (name, node) :: rest => (name, toValue node) :: toEntries rest

/-- The tables of a finished array of tables. -/
def toTables : List (List (String × Node)) → List Value
  | [] => []
  | entries :: rest => .table (toEntries entries) :: toTables rest

end

end Node

/-- A document half carried out: the path of the open table, and the tree. -/
structure Draft where
  opened : List String := []
  entries : Node.Entries := []

/-- Carries out one statement. -/
def Draft.perform (draft : Draft) : Statement → Option Draft
  | .header path => do
    return ⟨path, ← Node.openAt Node.declare path draft.entries⟩
  | .arrayHeader path => do
    return ⟨path, ← Node.openAt Node.extend path draft.entries⟩
  | .assign path value => do
    let entries ← Node.changeAtHeader (Node.assign path value) draft.opened draft.entries
    return { draft with entries }

/-- Carries out statements in order. -/
def Draft.performAll (draft : Draft) (statements : List Statement) : Option Draft :=
  statements.foldlM Draft.perform draft

/-- The table that a whole document denotes. -/
def build (statements : List Statement) : Option Entries := do
  let draft ← Draft.performAll {} statements
  return Node.toEntries draft.entries

/-- The table that the assignments between two braces denote. -/
def inlineTable (pairs : List (List String × Value)) : Option Entries :=
  build (pairs.map fun pair => .assign pair.1 pair.2)

end SgxActivation.Toml
