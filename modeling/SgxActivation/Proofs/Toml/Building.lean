import Mathlib.Data.List.Basic
import SgxActivation.Toml.Grammar

/-!
# Ways of writing a table

A table at the top of a document can be written under a header, by dotted names, or between
braces. The statements about it stand among others, and what they denote does not depend on
those.

* **`Placed`** — a statement with the path of the table in which it stands; `about` and `apart`
  are the statements of a document about one top-level name, and the others;
* **`Node.ChangesAt`** — a step that looks at the node under one name, and changes no other;
  `changesAt_perform` — every statement is one, under the first name of its path;
* `carryOut_splits` — so the statements about a name and the others can be carried out apart;
* **`Writes`** — the statements that write a table, in one way or another;
* `build_of_writes` — all of them denote the same.
-/

namespace SgxActivation.Toml

/-! ## Nodes under names -/

namespace Node

variable {name other : String}

@[simp]
theorem find?_put_self (name : String) (node : Node) (entries : Node.Entries) :
    find? name (put name node entries) = some node := by
  induction entries with
  | nil => simp [put, find?]
  | cons entry rest ih =>
    obtain ⟨first, old⟩ := entry
    by_cases hfirst : first = name
    · simp [put, find?, hfirst]
    · simp [put, find?, hfirst, ih]

theorem find?_put_of_ne (h : other ≠ name) (node : Node) (entries : Node.Entries) :
    find? other (put name node entries) = find? other entries := by
  induction entries with
  | nil => simp [put, find?, h.symm]
  | cons entry rest ih =>
    obtain ⟨first, old⟩ := entry
    by_cases hfirst : first = name
    · subst hfirst
      simp [put, find?, h.symm]
    · simp only [put, hfirst, if_false, find?, ih]

/-- The value under a name, once the table is finished. -/
theorem get?_toEntries (name : String) (entries : Node.Entries) :
    Toml.Entries.get? (toEntries entries) name = (find? name entries).map toValue := by
  induction entries with
  | nil => simp [toEntries, find?, Toml.Entries.get?]
  | cons entry rest ih =>
    obtain ⟨first, node⟩ := entry
    by_cases hfirst : first = name
    · simp [toEntries, find?, Toml.Entries.get?, hfirst]
    · simp [toEntries, find?, Toml.Entries.get?, hfirst, ih]

/-! ## Changes under one name -/

/-- A step that looks at the node under a name, and either fails or puts another there. -/
def ChangesAt (name : String) (step : Node.Entries → Option Node.Entries) : Prop :=
  ∀ ⦃entries other⦄, find? name entries = find? name other →
    (step entries = none ∧ step other = none) ∨
      ∃ node, step entries = some (put name node entries) ∧ step other = some (put name node other)

/-- What was worked out from the node alone is put there in either table. -/
theorem put_alike {α : Type} (found : Option α) (node : α → Node) (name : String)
    (entries other : Node.Entries) :
    ((do return put name (node (← found)) entries) = none ∧
        (do return put name (node (← found)) other) = none) ∨
      ∃ made, (do return put name (node (← found)) entries) = some (put name made entries) ∧
        (do return put name (node (← found)) other) = some (put name made other) := by
  cases found with
  | none => exact .inl ⟨rfl, rfl⟩
  | some found => exact .inr ⟨node found, rfl, rfl⟩

/-- A change at the end of a path happens under the first name of the path. -/
theorem changesAt_changeAt (enter : Origin) (open? : Origin → Bool)
    (change : Origin → Node.Entries → Option Node.Entries) (name : String) (path : List String)
    (origin : Origin) : ChangesAt name (changeAt enter open? change (name :: path) origin) := by
  intro entries other h
  rw [changeAt, changeAt, h]
  cases find? name other with
  | none => exact put_alike _ _ name entries other
  | some node =>
    cases node with
    | closed value => exact .inl ⟨rfl, rfl⟩
    | table origin inner =>
      dsimp only
      split
      · exact put_alike _ _ name entries other
      · exact .inl ⟨rfl, rfl⟩
    | tables items => exact put_alike _ _ name entries other

theorem changesAt_add (name : String) (value : Value) : ChangesAt name (add name value) := by
  intro entries other h
  simp only [add, h]
  cases find? name other with
  | none => exact .inr ⟨_, rfl, rfl⟩
  | some node => exact .inl ⟨rfl, rfl⟩

theorem changesAt_declare (name : String) : ChangesAt name (declare name) := by
  intro entries other h
  simp only [declare, h]
  split
  · exact .inr ⟨_, rfl, rfl⟩
  · exact .inr ⟨_, rfl, rfl⟩
  · exact .inl ⟨rfl, rfl⟩

theorem changesAt_extend (name : String) : ChangesAt name (extend name) := by
  intro entries other h
  simp only [extend, h]
  split
  · exact .inr ⟨_, rfl, rfl⟩
  · exact .inr ⟨_, rfl, rfl⟩
  · exact .inl ⟨rfl, rfl⟩

/-- A header opens something under its first name. -/
theorem changesAt_openAt {opening : String → Node.Entries → Option Node.Entries}
    (hopening : ∀ last, ChangesAt last (opening last)) (path : List String) :
    ChangesAt name (openAt opening (name :: path)) := by
  intro entries other h
  have hlast := List.getLast?_eq_some_getLast (List.cons_ne_nil name path)
  simp only [openAt, hlast]
  cases path with
  | nil => exact hopening name h
  | cons second path => exact changesAt_changeAt _ _ _ name _ _ h

/-- An assignment adds the last part of its name where the parts before it lead. -/
theorem assign_concat (front : List String) (last : String) (value : Value)
    (entries : Node.Entries) :
    assign (front ++ [last]) value entries =
      changeAt .dotted (· ≠ .declared)
        (fun origin inner =>
          if (origin == .dotted) == front.isEmpty then none else add last value inner)
        front .declared entries := by
  simp only [assign, List.getLast?_concat, List.dropLast_concat]

/-- An assignment puts something under its first name. -/
theorem changesAt_assign (path : List String) (value : Value) :
    ChangesAt name (assign (name :: path) value) := by
  intro entries other h
  have hlast := List.getLast?_eq_some_getLast (List.cons_ne_nil name path)
  simp only [assign, hlast]
  cases path with
  | nil => exact changesAt_add name value h
  | cons second path => exact changesAt_changeAt _ _ _ name _ _ h

end Node

/-! ## Statements where they stand -/

/-- A statement, with the path of the table in which it stands: headers stand in the document
itself, and assignments in the table that is open. -/
structure Placed where
  opened : List String
  statement : Statement

/-- A statement where it stands, when a table is open. -/
def Statement.place (opened : List String) : Statement → Placed
  | .assign path value => ⟨opened, .assign path value⟩
  | opening => ⟨[], opening⟩

/-- The path of the table that is open after a statement. -/
def Statement.opens (opened : List String) : Statement → List String
  | .header path | .arrayHeader path => path
  | .assign _ _ => opened

/-- The statements of a document where they stand, if a table is open in front of them. -/
def placed (opened : List String) : List Statement → List Placed
  | [] => []
  | statement :: rest => statement.place opened :: placed (statement.opens opened) rest

namespace Placed

/-- The path, from the top of the document, of what a statement names. -/
def path (statement : Placed) : List String :=
  match statement.statement with
  | .header path | .arrayHeader path => path
  | .assign path _ => statement.opened ++ path

/-- Carries out a statement where it stands. -/
def perform (statement : Placed) (entries : Node.Entries) : Option Node.Entries :=
  match statement.statement with
  | .header path => Node.openAt Node.declare path entries
  | .arrayHeader path => Node.openAt Node.extend path entries
  | .assign path value => Node.changeAtHeader (Node.assign path value) statement.opened entries

/-- Carries out statements in order. -/
def carryOut (statements : List Placed) (entries : Node.Entries) : Option Node.Entries :=
  statements.foldlM (fun entries statement => statement.perform entries) entries

/-- A statement that names nothing cannot be carried out. -/
theorem perform_of_path_eq_nil {statement : Placed} (h : statement.path = [])
    (entries : Node.Entries) : statement.perform entries = none := by
  obtain ⟨opened, statement⟩ := statement
  cases statement with
  | header path => cases h; rfl
  | arrayHeader path => cases h; rfl
  | assign path value =>
    obtain ⟨rfl, rfl⟩ : opened = [] ∧ path = [] := List.append_eq_nil_iff.mp h
    rfl

/-- A statement looks at the node under the first name of its path, and changes no other. -/
theorem changesAt_perform {statement : Placed} {name : String} {path : List String}
    (h : statement.path = name :: path) : Node.ChangesAt name statement.perform := by
  obtain ⟨opened, statement⟩ := statement
  cases statement with
  | header path =>
    cases h
    exact Node.changesAt_openAt Node.changesAt_declare _
  | arrayHeader path =>
    cases h
    exact Node.changesAt_openAt Node.changesAt_extend _
  | assign path value =>
    cases opened with
    | nil =>
      obtain rfl : path = name :: _ := h
      exact Node.changesAt_assign _ value
    | cons first opened =>
      obtain ⟨rfl, -⟩ := List.cons.inj h
      exact Node.changesAt_changeAt _ _ _ first _ .declared

end Placed

/-- Carrying out a statement opens a table, and does to the tree what it does where it stands. -/
theorem Draft.perform_eq (draft : Draft) (statement : Statement) :
    draft.perform statement =
      ((statement.place draft.opened).perform draft.entries).map
        fun entries => ⟨statement.opens draft.opened, entries⟩ := by
  cases statement with
  | header path => exact Option.map_eq_bind.symm
  | arrayHeader path => exact Option.map_eq_bind.symm
  | assign path value => exact Option.map_eq_bind.symm

/-- Statements are carried out one by one, each where it stands. -/
theorem Draft.performAll_entries (statements : List Statement) (draft : Draft) :
    (draft.performAll statements).map Draft.entries =
      Placed.carryOut (placed draft.opened statements) draft.entries := by
  induction statements generalizing draft with
  | nil => rfl
  | cons statement rest ih =>
    simp only [Draft.performAll, Placed.carryOut, placed, List.foldlM_cons] at ih ⊢
    rw [draft.perform_eq]
    cases (statement.place draft.opened).perform draft.entries with
    | none => rfl
    | some entries => exact ih ⟨statement.opens draft.opened, entries⟩

/-- The table that a document denotes, told by its statements where they stand. -/
theorem build_eq (statements : List Statement) :
    build statements = (Placed.carryOut (placed [] statements) []).map Node.toEntries := by
  rw [← Draft.performAll_entries statements {}]
  unfold build
  cases Draft.performAll {} statements <;> rfl

/-! ## One name and the others -/

namespace Placed

/-- A statement is about this top-level name. -/
def IsAbout (name : String) (statement : Placed) : Prop := statement.path.head? = some name

instance (name : String) (statement : Placed) : Decidable (statement.IsAbout name) :=
  inferInstanceAs (Decidable (_ = _))

/-- The statements about a name. -/
def about (name : String) (statements : List Placed) : List Placed :=
  statements.filter fun statement => statement.IsAbout name

/-- The statements that are not about a name. -/
def apart (name : String) (statements : List Placed) : List Placed :=
  statements.filter fun statement => ¬ statement.IsAbout name

/-- A table is split into two, one that agrees with it on a name, and one on all others. -/
structure Splits (name : String) (entries own others : Node.Entries) : Prop where
  own : Node.find? name own = Node.find? name entries
  others : ∀ ⦃other⦄, other ≠ name → Node.find? other others = Node.find? other entries

variable {name : String} {entries own others : Node.Entries}

/-- What is put under the name goes to the one half. -/
theorem Splits.put_own (h : Splits name entries own others) (node : Node) :
    Splits name (Node.put name node entries) (Node.put name node own) others where
  own := by simp
  others other hother := by rw [Node.find?_put_of_ne hother, h.others hother]

/-- What is put under another name goes to the other. -/
theorem Splits.put_others (h : Splits name entries own others) {other : String}
    (hother : other ≠ name) (node : Node) :
    Splits name (Node.put other node entries) own (Node.put other node others) where
  own := by rw [Node.find?_put_of_ne hother.symm, h.own]
  others third hthird := by
    by_cases hsame : third = other
    · rw [hsame, Node.find?_put_self, Node.find?_put_self]
    · rw [Node.find?_put_of_ne hsame, Node.find?_put_of_ne hsame, h.others hthird]

theorem carryOut_cons (statement : Placed) (rest : List Placed) (entries : Node.Entries) :
    carryOut (statement :: rest) entries = (statement.perform entries).bind (carryOut rest) := rfl

/-- The statements about a name and the others can be carried out apart: together they fail when
either do, and else come to what both come to. -/
theorem carryOut_splits (statements : List Placed) (h : Splits name entries own others) :
    (carryOut statements entries = none ∧
        (carryOut (about name statements) own = none ∨
          carryOut (apart name statements) others = none)) ∨
      ∃ entries' own' others', carryOut statements entries = some entries' ∧
        carryOut (about name statements) own = some own' ∧
        carryOut (apart name statements) others = some others' ∧
        Splits name entries' own' others' := by
  induction statements generalizing entries own others with
  | nil => exact .inr ⟨entries, own, others, rfl, rfl, rfl, h⟩
  | cons statement rest ih =>
    by_cases habout : statement.IsAbout name
    · obtain ⟨path, hpath⟩ := List.head?_eq_some_iff.mp habout
      have hown : about name (statement :: rest) = statement :: about name rest := by
        simp [about, habout]
      have hothers : apart name (statement :: rest) = apart name rest := by
        simp [apart, habout]
      rw [hown, hothers, carryOut_cons, carryOut_cons]
      rcases changesAt_perform hpath h.own.symm with ⟨hstep, hstep'⟩ | ⟨node, hstep, hstep'⟩
      · exact .inl ⟨by rw [hstep]; rfl, .inl (by rw [hstep']; rfl)⟩
      · rw [hstep, hstep']
        exact ih (h.put_own node)
    · have hown : about name (statement :: rest) = about name rest := by
        simp [about, habout]
      have hothers : apart name (statement :: rest) = statement :: apart name rest := by
        simp [apart, habout]
      rw [hown, hothers, carryOut_cons, carryOut_cons]
      cases hpath : statement.path with
      | nil =>
        rw [perform_of_path_eq_nil hpath, perform_of_path_eq_nil hpath]
        exact .inl ⟨rfl, .inr rfl⟩
      | cons other path =>
        have hother : other ≠ name := by
          rintro rfl
          exact habout (by rw [IsAbout, hpath, List.head?_cons])
        rcases changesAt_perform hpath (h.others hother).symm with
          ⟨hstep, hstep'⟩ | ⟨node, hstep, hstep'⟩
        · exact .inl ⟨by rw [hstep]; rfl, .inr (by rw [hstep']; rfl)⟩
        · rw [hstep, hstep']
          exact ih (h.put_others hother node)

end Placed

/-! ## Three ways of writing a table -/

/-- An assignment that stands where the table of this path is open. -/
def Placed.assigning (opened : List String) (pair : List String × Value) : Placed :=
  ⟨opened, .assign pair.1 pair.2⟩

/-- The entries have this content under a name; one without content can be missing. -/
def Entries.Has (entries : Entries) (name : String) (content : Entries) : Prop :=
  entries.get? name = some (.table content) ∨ content = [] ∧ entries.get? name = none

/-- The statements that write a table of this name. They come to the content that the same
assignments have between braces, if they have any. -/
inductive Writes (name : String) : Option Entries → List Placed → Prop
  /-- Under a header of its own. -/
  | underHeader (pairs : List (List String × Value)) : Writes name (inlineTable pairs)
      (⟨[], .header [name]⟩ :: pairs.map (.assigning [name]))
  /-- By dotted names. -/
  | dotted (pairs : List (List String × Value)) : (∀ pair ∈ pairs, pair.1 ≠ []) →
      Writes name (inlineTable pairs)
        (pairs.map fun pair => .assigning [] (name :: pair.1, pair.2))
  /-- Between braces. -/
  | braced (content : Entries) : Writes name (some content) [.assigning [] ([name], .table content)]

namespace Placed

variable {name : String} {pairs : List (List String × Value)}

/-- What stands between braces is assigned within one table. -/
theorem inlineTable_eq (pairs : List (List String × Value)) :
    inlineTable pairs = (carryOut (pairs.map (assigning [])) []).map Node.toEntries := by
  have hplaced : placed [] (pairs.map fun pair => .assign pair.1 pair.2) =
      pairs.map (assigning []) := by
    induction pairs with
    | nil => rfl
    | cons pair rest ih => exact congrArg _ ih
  rw [inlineTable, build_eq, hplaced]

/-- Under a header, a value is assigned within the table that the header opened. -/
theorem perform_underHeader (pair : List String × Value) (inner : Node.Entries) :
    (assigning [name] pair).perform [(name, .table .declared inner)] =
      ((assigning [] pair).perform inner).map fun inner => [(name, .table .declared inner)] := by
  simp only [assigning, perform, Node.changeAtHeader, Node.changeAt, Node.find?, Node.put,
    Option.map_eq_bind]
  rfl

/-- A name with this one in front is assigned to within the table of dotted names. -/
theorem perform_dotted {pair : List String × Value} (h : pair.1 ≠ []) (inner : Node.Entries) :
    (assigning [] (name :: pair.1, pair.2)).perform [(name, .table .dotted inner)] =
      ((assigning [] pair).perform inner).map fun inner => [(name, .table .dotted inner)] := by
  obtain ⟨path, value⟩ := pair
  obtain ⟨front, last, rfl⟩ := (List.eq_nil_or_concat' path).resolve_left h
  simp only [assigning, perform, Node.changeAtHeader, Node.changeAt, ← List.cons_append,
    Node.assign_concat, Node.find?, Node.put, Option.map_eq_bind]
  -- Whether the starting table is open to dotted names matters to a single name alone.
  cases front with
  | nil => rfl
  | cons first front => rfl

/-- The first dotted name makes its table. -/
theorem perform_dotted_nil {pair : List String × Value} (h : pair.1 ≠ []) :
    (assigning [] (name :: pair.1, pair.2)).perform [] =
      (assigning [] (name :: pair.1, pair.2)).perform [(name, .table .dotted [])] := by
  obtain ⟨path, value⟩ := pair
  obtain ⟨front, last, rfl⟩ := (List.eq_nil_or_concat' path).resolve_left h
  simp only [assigning, perform, Node.changeAtHeader, Node.changeAt, ← List.cons_append,
    Node.assign_concat, Node.find?, Node.put]
  rfl

/-- Statements that each do within a table what others do at the top do so together. -/
theorem carryOut_within {origin : Origin} {write : List String × Value → Placed}
    (hwrite : ∀ pair ∈ pairs, ∀ inner, (write pair).perform [(name, .table origin inner)] =
      ((assigning [] pair).perform inner).map fun inner => [(name, .table origin inner)])
    (inner : Node.Entries) :
    carryOut (pairs.map write) [(name, .table origin inner)] =
      (carryOut (pairs.map (assigning [])) inner).map
        fun inner => [(name, .table origin inner)] := by
  induction pairs generalizing inner with
  | nil => rfl
  | cons pair rest ih =>
    simp only [List.map_cons, carryOut_cons]
    rw [hwrite pair List.mem_cons_self inner]
    cases (assigning [] pair).perform inner with
    | none => rfl
    | some inner => exact ih (fun pair h => hwrite pair (List.mem_cons_of_mem _ h)) inner

/-- Statements that do within one table what the assignments do between braces write what these
come to. -/
theorem writes_of_within {origin : Origin} {statements : List Placed}
    (h : carryOut statements [] = (carryOut (pairs.map (assigning [])) []).map
      fun inner => [(name, .table origin inner)]) :
    (inlineTable pairs = none ∧ carryOut statements [] = none) ∨
      ∃ table entries, inlineTable pairs = some table ∧ carryOut statements [] = some entries ∧
        Entries.Has (Node.toEntries entries) name table := by
  rw [inlineTable_eq, h]
  cases carryOut (pairs.map (assigning [])) [] with
  | none => exact .inl ⟨rfl, rfl⟩
  | some inner =>
    have hget : Entries.get? (Node.toEntries [(name, .table origin inner)]) name =
        some (.table (Node.toEntries inner)) := by
      simp [Node.get?_toEntries, Node.find?, Node.toValue]
    exact .inr ⟨_, _, rfl, rfl, .inl hget⟩

/-- However a table is written, it gets the content that is written. -/
theorem carryOut_writes {content : Option Entries} {statements : List Placed}
    (h : Writes name content statements) :
    (content = none ∧ carryOut statements [] = none) ∨
      ∃ table entries, content = some table ∧ carryOut statements [] = some entries ∧
        Entries.Has (Node.toEntries entries) name table := by
  cases h with
  | underHeader pairs =>
    exact writes_of_within (carryOut_within (fun pair _ => perform_underHeader pair) [])
  | dotted pairs hpairs =>
    cases pairs with
    | nil => exact .inr ⟨[], [], rfl, rfl, .inr ⟨rfl, rfl⟩⟩
    | cons pair rest =>
      have hrun : carryOut _ [(name, .table .dotted [])] = _ :=
        carryOut_within (fun pair h => perform_dotted (hpairs pair h)) []
      rw [List.map_cons, carryOut_cons,
        ← perform_dotted_nil (hpairs pair List.mem_cons_self)] at hrun
      exact writes_of_within hrun
  | braced content =>
    exact .inr ⟨content, _, rfl, rfl, .inl (by simp [Node.get?_toEntries, Node.toValue])⟩

end Placed

/-- However a table is written among the same statements, the document has its content under the
name, and under all others the values that the other statements come to by themselves. It is
refused if the table has no content, or if the others come to nothing. -/
theorem build_of_writes {name : String} {content : Option Entries} {statements : List Statement}
    (h : Writes name content (Placed.about name (placed [] statements))) :
    (build statements = none ∧
        (content = none ∨ Placed.carryOut (Placed.apart name (placed [] statements)) [] = none)) ∨
      ∃ entries table others, build statements = some entries ∧ content = some table ∧
        Placed.carryOut (Placed.apart name (placed [] statements)) [] = some others ∧
        entries.Has name table ∧
        ∀ other, other ≠ name →
          entries.get? other = (Node.find? other others).map Node.toValue := by
  have hsplits : Placed.Splits name [] [] [] := ⟨rfl, fun _ _ => rfl⟩
  rw [build_eq]
  rcases Placed.carryOut_splits (placed [] statements) hsplits with
    ⟨hall, hfails⟩ | ⟨entries, own, others, hall, hown, hothers, hsplit⟩
  · refine .inl ⟨by rw [hall]; rfl, hfails.imp_left fun hown => ?_⟩
    rcases Placed.carryOut_writes h with ⟨hcontent, -⟩ | ⟨table, entries, -, hsome, -⟩
    · exact hcontent
    · rw [hsome] at hown
      cases hown
  · rcases Placed.carryOut_writes h with ⟨-, hnone⟩ | ⟨table, entries', hcontent, hsome, hhas⟩
    · rw [hnone] at hown
      cases hown
    · obtain rfl : entries' = own := Option.some.inj (hsome.symm.trans hown)
      refine .inr ⟨_, table, others, by rw [hall]; rfl, hcontent, hothers, ?_, ?_⟩
      · unfold Entries.Has at hhas ⊢
        rwa [Node.get?_toEntries, ← hsplit.own, ← Node.get?_toEntries]
      · intro other hother
        rw [Node.get?_toEntries, hsplit.others hother]

/-- The statements of a document, behind its byte order mark. -/
def statementsOf (document : String) : Option (List Statement) :=
  statements (match document.toList with
    | '\uFEFF' :: rest => rest
    | cs => cs)

/-- A document is cut into statements, and then built. -/
theorem parse_eq (document : String) : parse document = (statementsOf document).bind build := rfl

end SgxActivation.Toml
