import SgxActivation.Config.Document
import SgxActivation.Proofs.Toml.Building

/-!
# Documents over defaults

A configuration document is laid over the defaults field by field.

* **`Overlays`** — a configuration has what a document gives, and the defaults elsewhere;
* **`Refused`** — the document is not TOML, a section is none, or a field is given what does not
  fit; `ofDocument_cases` says that these are the only failures;
* `ofEntries_eq` — a document is read field by field, through `valueOf`, so documents that give
  the fields the same come to the same;
* **`Interchangeable`** — documents that differ in names that mean nothing, in whether a section
  goes by names or by position, or in the way a table is written;
* `ofDocument_overlays` — all of it together.
-/

namespace SgxActivation

open Toml

/-! ## What a document gives -/

/-- A value that can be a section: a table, or an array that goes by position. A bare moment
passes for a section without content. -/
def Toml.Value.IsSection : Value → Prop
  | .table _ | .array _ | .moment _ => True
  | _ => False

namespace Config

/-- The fields that a document can give. -/
inductive Field where
  | path (field : PathField)
  | cap
  deriving DecidableEq, Repr

namespace Field

/-- The section that a field is in. -/
def home : Field → String
  | .path _ => "paths"
  | .cap => "cpu"

/-- The name of a field within its section. -/
def key : Field → String
  | .path .efiRoot => "efi_root"
  | .path .efivarsDir => "efivars_dir"
  | .path .bootEfi => "boot_efi"
  | .cap => "max_epc_subleaves"

/-- The place of a field in the order of declaration. -/
def position : Field → Nat
  | .path .efiRoot => 0
  | .path .efivarsDir => 1
  | .path .bootEfi => 2
  | .cap => 0

/-- A value of the right type, and within the range of the field. -/
def Fits : Field → Value → Prop
  | .path _, .text _ => True
  | .cap, .integer n => 0 ≤ n ∧ n ≤ 0xffffffff
  | _, _ => False

/-- A configuration has this value in the field. -/
def Holds (field : Field) (config : Config) (value : Value) : Prop :=
  match field with
  | .path field => value = .text (config.path field).text
  | .cap => value = .integer config.subleafCap.toNat

/-- Two configurations agree on a field. -/
def Agrees (field : Field) (config other : Config) : Prop :=
  match field with
  | .path field => config.path field = other.path field
  | .cap => config.subleafCap = other.subleafCap

end Field

/-- What a document gives to a field, by its name or by its position. -/
def gives (document : Entries) (field : Field) : Option Value :=
  match document.get? field.home with
  | some (.table entries) => Entries.get? entries field.key
  | some (.array items) => items[field.position]?
  | _ => none

/-- A configuration has what a document gives, and the defaults elsewhere. -/
structure Overlays (document : Entries) (config : Config) : Prop where
  given : ∀ field value, gives document field = some value → field.Holds config value
  omitted : ∀ field, gives document field = none → field.Agrees config {}

/-- A document that gives no configuration: a section is none, or a field is given a value that
does not fit. -/
inductive Unfit (document : Entries) : Prop
  | home {field : Field} {value} : document.get? field.home = some value → ¬ value.IsSection →
      Unfit document
  | field {field value} : gives document field = some value → ¬ field.Fits value → Unfit document

/-! ## Reading field by field -/

/-- What is read from a value that a field can be given: the default if there is none, else what
the value says, unless it does not fit. -/
structure Reads {α : Type} (field : Field) (default : α) (means : Value → α → Prop)
    (read : Option Value → Except Misfit α) : Prop where
  omitted : read none = .ok default
  fits : ∀ value, field.Fits value →
    ∃ content, read (some value) = .ok content ∧ means value content
  misfits : ∀ value, ¬ field.Fits value → ∃ misfit, read (some value) = .error misfit

theorem pathOr_reads (field : PathField) (default : Path) :
    Reads (.path field) default (fun value path => value = .text path.text)
      (pathOr field default) where
  omitted := rfl
  fits value hfits := by
    cases value with
    | text text => exact ⟨⟨text⟩, rfl, rfl⟩
    | _ => cases hfits
  misfits value hmisfits := by
    cases value with
    | text text => exact absurd trivial hmisfits
    | _ => exact ⟨_, rfl⟩

theorem capOr_reads (default : UInt32) :
    Reads .cap default (fun value cap => value = .integer cap.toNat) (capOr default) where
  omitted := rfl
  fits value hfits := by
    cases value with
    | integer n =>
      obtain ⟨hnonneg, hbound⟩ : 0 ≤ n ∧ n ≤ 0xffffffff := hfits
      have hcap : n.toNat.toUInt32.toNat = n.toNat :=
        UInt32.toNat_ofNat_of_lt' (show n.toNat < 2 ^ 32 by omega)
      refine ⟨n.toNat.toUInt32, by simp [capOr, hnonneg, hbound], ?_⟩
      rw [hcap, Int.toNat_of_nonneg hnonneg]
    | _ => cases hfits
  misfits value hmisfits := by
    cases value with
    | integer n =>
      have hrange : ¬ (0 ≤ n ∧ n ≤ 0xffffffff) := hmisfits
      exact ⟨.wrongField "cpu.max_epc_subleaves", by simp [capOr, hrange]⟩
    | _ => exact ⟨_, rfl⟩

/-- What is read of a field: what the document gives, unless its section is none. -/
def valueOf (document : Entries) (field : Field) : Except Misfit (Option Value) :=
  (given document field.home).map fun found => found.field? field.key field.position

/-- A document is read field by field, and nothing else in it is looked at. -/
theorem ofEntries_eq (document : Entries) : ofEntries document = do
    let defaults : Config := {}
    let efiRoot ← valueOf document (.path .efiRoot) >>=
      pathOr .efiRoot defaults.locations.efiRoot
    let efivarsDir ← valueOf document (.path .efivarsDir) >>=
      pathOr .efivarsDir defaults.locations.efivarsDir
    let bootEfi ← valueOf document (.path .bootEfi) >>=
      pathOr .bootEfi defaults.locations.bootEfi
    let subleafCap ← valueOf document .cap >>= capOr defaults.subleafCap
    return { locations := { efiRoot, efivarsDir, bootEfi }, subleafCap } := by
  unfold ofEntries locationsOf subleafCapOf valueOf Field.home
  cases given document "paths" with
  | error misfit => rfl
  | ok paths =>
    cases given document "cpu" with
    | error misfit => simp only [bind_assoc, pure_bind]; rfl
    | ok cpu => simp only [bind_assoc, pure_bind]; rfl

section

variable {document : Entries} {field : Field}

theorem valueOf_of_isSection
    (h : ∀ value, document.get? field.home = some value → value.IsSection) :
    valueOf document field = .ok (gives document field) := by
  unfold valueOf given gives
  cases hhome : document.get? field.home with
  | none => rfl
  | some value =>
    cases value with
    | text | integer | float | boolean => exact (h _ hhome).elim
    | moment | array | table => rfl

theorem valueOf_of_not_isSection {value : Value} (hhome : document.get? field.home = some value)
    (h : ¬ value.IsSection) : valueOf document field = .error (.wrongSection field.home) := by
  unfold valueOf given
  rw [hhome]
  cases value with
  | text | integer | float | boolean => rfl
  | moment | array | table => exact absurd trivial h

/-- Nothing is wrong with a field, nor with its section. -/
structure Sound (document : Entries) (field : Field) : Prop where
  home : ∀ value, document.get? field.home = some value → value.IsSection
  field : ∀ value, gives document field = some value → field.Fits value

theorem not_unfit (h : ∀ field, Sound document field) : ¬ Unfit document
  | .home hhome hnone => hnone ((h _).home _ hhome)
  | .field hgives hmisfits => hmisfits ((h _).field _ hgives)

/-- A field is refused because something is wrong with it, or it is what it is given, or its
default. -/
theorem read_cases {α : Type} {default : α} {means : Value → α → Prop}
    {read : Option Value → Except Misfit α} (h : Reads field default means read)
    (document : Entries) :
    (∃ misfit, (valueOf document field >>= read) = .error misfit ∧ Unfit document) ∨
      ∃ content, (valueOf document field >>= read) = .ok content ∧ Sound document field ∧
        (∀ value, gives document field = some value → means value content) ∧
        (gives document field = none → content = default) := by
  by_cases hsection : ∀ value, document.get? field.home = some value → value.IsSection
  · rw [valueOf_of_isSection hsection]
    cases hgives : gives document field with
    | none =>
      exact .inr ⟨default, h.omitted, ⟨hsection, by simp [hgives]⟩, by simp, fun _ => rfl⟩
    | some value =>
      by_cases hfits : field.Fits value
      · obtain ⟨content, hcontent, hmeans⟩ := h.fits value hfits
        refine .inr ⟨content, hcontent, ⟨hsection, ?_⟩, ?_, by simp⟩
        · rintro _ hvalue
          cases hgives.symm.trans hvalue
          exact hfits
        · rintro _ ⟨⟩
          exact hmeans
      · obtain ⟨misfit, hmisfit⟩ := h.misfits value hfits
        exact .inl ⟨misfit, hmisfit, .field hgives hfits⟩
  · simp only [not_forall] at hsection
    obtain ⟨value, hhome, hnone⟩ := hsection
    exact .inl ⟨_, by rw [valueOf_of_not_isSection hhome hnone]; rfl, .home hhome hnone⟩

end

/-- Entries are refused when something is wrong with them, and else they are laid over the
defaults. -/
theorem ofEntries_cases (document : Entries) :
    (∃ misfit, ofEntries document = .error misfit ∧ Unfit document) ∨
      ∃ config, ofEntries document = .ok config ∧ ¬ Unfit document ∧ Overlays document config := by
  rw [ofEntries_eq]
  dsimp only
  rcases read_cases (pathOr_reads .efiRoot ({} : Config).locations.efiRoot) document with
    ⟨misfit, hroot, hunfit⟩ | ⟨root, hroot, hrootTold⟩
  · exact .inl ⟨misfit, by rw [hroot]; rfl, hunfit⟩
  rcases read_cases (pathOr_reads .efivarsDir ({} : Config).locations.efivarsDir) document with
    ⟨misfit, hvars, hunfit⟩ | ⟨vars, hvars, hvarsTold⟩
  · exact .inl ⟨misfit, by rw [hroot, hvars]; rfl, hunfit⟩
  rcases read_cases (pathOr_reads .bootEfi ({} : Config).locations.bootEfi) document with
    ⟨misfit, hboot, hunfit⟩ | ⟨boot, hboot, hbootTold⟩
  · exact .inl ⟨misfit, by rw [hroot, hvars, hboot]; rfl, hunfit⟩
  rcases read_cases (capOr_reads ({} : Config).subleafCap) document with
    ⟨misfit, hcap, hunfit⟩ | ⟨cap, hcap, hcapTold⟩
  · exact .inl ⟨misfit, by rw [hroot, hvars, hboot, hcap]; rfl, hunfit⟩
  let config : Config := { locations := ⟨root, vars, boot⟩, subleafCap := cap }
  have htold : ∀ field, Sound document field ∧
      (∀ value, gives document field = some value → field.Holds config value) ∧
      (gives document field = none → field.Agrees config {})
    | .path .efiRoot => hrootTold
    | .path .efivarsDir => hvarsTold
    | .path .bootEfi => hbootTold
    | .cap => hcapTold
  refine .inr ⟨config, ?_, not_unfit fun field => (htold field).1,
    fun field => (htold field).2.1, fun field => (htold field).2.2⟩
  rw [hroot, hvars, hboot, hcap]
  rfl

/-! ## What does not matter -/

end Config

namespace Toml

mutual

/-- A value without the keys of its tables. -/
def Value.keyless : Value → Value
  | .array items => .array (keylessAll items)
  | .table _ => .table []
  | value => value

/-- Values without the keys of their tables. -/
def keylessAll : List Value → List Value
  | [] => []
  | value :: rest => value.keyless :: keylessAll rest

end

theorem keylessAll_eq (items : List Value) : keylessAll items = items.map Value.keyless := by
  induction items with
  | nil => rfl
  | cons item rest ih => rw [keylessAll, ih, List.map_cons]

/-- The entries under some names, changed. -/
def Entries.select (names : List String) (change : String → Value → Value) (entries : Entries) :
    Entries :=
  (entries.filter fun entry => entry.1 ∈ names).map fun entry => (entry.1, change entry.1 entry.2)

theorem Entries.get?_select {names : List String} {name : String} (h : name ∈ names)
    (change : String → Value → Value) (entries : Entries) :
    (entries.select names change).get? name = (entries.get? name).map (change name) := by
  induction entries with
  | nil => rfl
  | cons entry rest ih =>
    obtain ⟨first, value⟩ := entry
    unfold Entries.select at ih ⊢
    by_cases hfirst : first = name
    · subst hfirst
      simp [Entries.get?, h]
    · by_cases hmem : first ∈ names
      · simpa [Entries.get?, hmem, hfirst] using ih
      · simpa [Entries.get?, hmem, hfirst] using ih

end Toml

namespace Config

variable {document other : Entries}

/-- All fields, in the order of declaration. -/
def Field.all : List Field := [.path .efiRoot, .path .efivarsDir, .path .bootEfi, .cap]

/-- The names of the fields of a section, in the order of declaration. -/
def keysOf (home : String) : List String :=
  (Field.all.filter fun field => field.home = home).map Field.key

/-- A document without the names that mean nothing, at every level. -/
def known (document : Entries) : Entries :=
  document.select (Field.all.map Field.home) fun home => fun
    | .table entries => .table (Entries.select (keysOf home) (fun _ => Value.keyless) entries)
    | value => value.keyless

theorem Field.home_mem (field : Field) : field.home ∈ Field.all.map Field.home := by
  rcases field with (_ | _ | _) | _ <;> decide

theorem Field.key_mem (field : Field) : field.key ∈ keysOf field.home := by
  rcases field with (_ | _ | _) | _ <;> decide

theorem pathOr_keyless (field : PathField) (default : Path) (given : Option Value) :
    pathOr field default (given.map Value.keyless) = pathOr field default given := by
  rcases given with _ | (_ | _ | _ | _ | _ | _ | _) <;> simp [pathOr, Value.keyless]

theorem capOr_keyless (default : UInt32) (given : Option Value) :
    capOr default (given.map Value.keyless) = capOr default given := by
  rcases given with _ | (_ | _ | _ | _ | _ | _ | _) <;> simp [capOr, Value.keyless]

theorem bind_keyless {α : Type} {read : Option Value → Except Misfit α}
    (hread : ∀ given, read (given.map Value.keyless) = read given)
    (value : Except Misfit (Option Value)) :
    value.map (Option.map Value.keyless) >>= read = value >>= read := by
  cases value with
  | error misfit => rfl
  | ok given => exact hread given

/-- What a document gives to its fields decides the configuration, and the keys of tables in it
do not matter. -/
theorem ofEntries_congr (h : ∀ field, (valueOf document field).map (Option.map Value.keyless) =
    (valueOf other field).map (Option.map Value.keyless)) :
    ofEntries document = ofEntries other := by
  have hpath : ∀ field default, (valueOf document (.path field) >>= pathOr field default) =
      valueOf other (.path field) >>= pathOr field default := fun field default => by
    have hread := pathOr_keyless field default
    rw [← bind_keyless hread (valueOf document _), h, bind_keyless hread]
  have hcap : ∀ default, (valueOf document .cap >>= capOr default) =
      valueOf other .cap >>= capOr default := fun default => by
    have hread := capOr_keyless default
    rw [← bind_keyless hread (valueOf document _), h, bind_keyless hread]
  simp only [ofEntries_eq, hpath, hcap]

theorem valueOf_known (document : Entries) (field : Field) :
    valueOf (known document) field = (valueOf document field).map (Option.map Value.keyless) := by
  unfold valueOf given known
  rw [Entries.get?_select field.home_mem]
  cases document.get? field.home with
  | none => rfl
  | some value =>
    cases value with
    | table entries => exact congrArg Except.ok (Entries.get?_select field.key_mem _ entries)
    | array items => simp [Except.map, Given.field?, Value.keyless, keylessAll_eq]
    | _ => rfl

/-- Names that mean nothing do not matter. -/
theorem ofEntries_of_known (h : known document = known other) :
    ofEntries document = ofEntries other :=
  ofEntries_congr fun field => by rw [← valueOf_known, ← valueOf_known, h]

section

variable {field : Field}

theorem valueOf_of_table {entries : Entries}
    (h : document.get? field.home = some (.table entries)) :
    valueOf document field = .ok (entries.get? field.key) := by
  unfold valueOf given
  rw [h]
  rfl

theorem valueOf_of_array {items : List Value}
    (h : document.get? field.home = some (.array items)) :
    valueOf document field = .ok items[field.position]? := by
  unfold valueOf given
  rw [h]
  rfl

theorem valueOf_of_none (h : document.get? field.home = none) :
    valueOf document field = .ok none := by
  unfold valueOf given
  rw [h]
  rfl

/-- A table that is there, or is missing without content, gives its fields what it has. -/
theorem valueOf_of_has {content : Entries} (h : document.Has field.home content) :
    valueOf document field = .ok (content.get? field.key) := by
  rcases h with hget | ⟨rfl, hget⟩
  · exact valueOf_of_table hget
  · exact valueOf_of_none hget

theorem valueOf_congr (h : document.get? field.home = other.get? field.home) :
    valueOf document field = valueOf other field := by
  unfold valueOf given
  rw [h]

/-- Items by position are the same items under the names of the fields. -/
theorem get?_zip (field : Field) (items : List Value) :
    Entries.get? ((keysOf field.home).zip items) field.key = items[field.position]? := by
  rcases field with (_ | _ | _) | _ <;> rcases items with _ | ⟨_, _ | ⟨_, _ | ⟨_, _⟩⟩⟩ <;> rfl

end

/-- Documents that differ in one section, and not in what it gives, come to the same. -/
theorem ofEntries_of_section {home : String}
    (hhome : ∀ field : Field, field.home = home → valueOf document field = valueOf other field)
    (hrest : ∀ name, name ≠ home → document.get? name = other.get? name) :
    ofEntries document = ofEntries other := by
  refine ofEntries_congr fun field => congrArg _ ?_
  by_cases h : field.home = home
  · exact hhome field h
  · exact valueOf_congr (hrest _ h)

/-! ## Documents as texts -/

/-- A document is refused if it is not TOML, or if something is wrong with its entries. -/
inductive Refused (document : String) : Prop
  | malformed : Toml.parse document = none → Refused document
  | unfit {entries} : Toml.parse document = some entries → Unfit entries → Refused document

/-- Documents that differ in nothing that matters. -/
inductive Interchangeable (document other : String) : Prop
  /-- In names that mean nothing, at any level. -/
  | unknownNames {entries entries' : Entries} :
      Toml.parse document = some entries → Toml.parse other = some entries' →
      known entries = known entries' → Interchangeable document other
  /-- A section goes by position in one of them, and by the names of its fields in the other. -/
  | byPosition {entries entries' : Entries} {field : Field} {items : List Value} :
      Toml.parse document = some entries → Toml.parse other = some entries' →
      entries.get? field.home = some (.array items) →
      entries'.get? field.home = some (.table ((keysOf field.home).zip items)) →
      (∀ name, name ≠ field.home → entries.get? name = entries'.get? name) →
      Interchangeable document other
  /-- A table is written with the same content, but in another way, among the same statements. -/
  | otherwiseWritten {statements statements' : List Statement} {name : String}
      {content content' : Option Entries} :
      statementsOf document = some statements → statementsOf other = some statements' →
      Writes name content (Placed.about name (placed [] statements)) →
      Writes name content' (Placed.about name (placed [] statements')) →
      content.map Entries.get? = content'.map Entries.get? →
      Placed.apart name (placed [] statements) = Placed.apart name (placed [] statements') →
      Interchangeable document other

theorem ofDocument_cases (document : String) :
    (Refused document ∧
        ∃ failure, ofDocument document = .error failure ∧ failure.kind = .invalidParameter) ∨
      ∃ entries config, Toml.parse document = some entries ∧ ¬ Unfit entries ∧
        ofDocument document = .ok config ∧ Overlays entries config := by
  unfold ofDocument
  cases hparse : Toml.parse document with
  | none => exact .inl ⟨.malformed hparse, _, rfl, rfl⟩
  | some entries =>
    rcases ofEntries_cases entries with ⟨misfit, herror, hunfit⟩ | ⟨config, hok, hfit, hoverlays⟩
    · exact .inl ⟨.unfit hparse hunfit, misfit.failure, by dsimp only; rw [herror]; rfl, rfl⟩
    · exact .inr ⟨entries, config, rfl, hfit, by dsimp only; rw [hok]; rfl, hoverlays⟩

theorem ofDocument_congr {document other : String} {entries entries' : Entries}
    (hdocument : Toml.parse document = some entries) (hother : Toml.parse other = some entries')
    (h : ofEntries entries = ofEntries entries') : ofDocument document = ofDocument other := by
  unfold ofDocument
  rw [hdocument, hother]
  dsimp only
  rw [h]

/-- Tables with the same content, written in whatever way among the same statements. -/
theorem ofDocument_of_writes {document other : String} {statements statements' : List Statement}
    {name : String} {content content' : Option Entries}
    (hdocument : statementsOf document = some statements)
    (hother : statementsOf other = some statements')
    (hwrites : Writes name content (Placed.about name (placed [] statements)))
    (hwrites' : Writes name content' (Placed.about name (placed [] statements')))
    (hcontent : content.map Entries.get? = content'.map Entries.get?)
    (hothers : Placed.apart name (placed [] statements) =
      Placed.apart name (placed [] statements')) :
    ofDocument document = ofDocument other := by
  have hparse : Toml.parse document = build statements := by rw [parse_eq, hdocument]; rfl
  have hparse' : Toml.parse other = build statements' := by rw [parse_eq, hother]; rfl
  rcases build_of_writes hwrites with
    ⟨hbuild, hfails⟩ | ⟨entries, table, rest, hbuild, rfl, hrest, hhas, hget⟩
  · rcases build_of_writes hwrites' with
      ⟨hbuild', -⟩ | ⟨entries', table', rest', hbuild', rfl, hrest', hhas', hget'⟩
    · unfold ofDocument
      rw [hparse, hparse', hbuild, hbuild']
    · rcases hfails with rfl | hfails
      · cases hcontent
      · rw [hothers, hrest'] at hfails
        cases hfails
  · rcases build_of_writes hwrites' with
      ⟨hbuild', hfails⟩ | ⟨entries', table', rest', hbuild', rfl, hrest', hhas', hget'⟩
    · rcases hfails with rfl | hfails
      · cases hcontent
      · rw [← hothers, hrest] at hfails
        cases hfails
    · have hsame : Entries.get? table = Entries.get? table' := Option.some.inj hcontent
      obtain rfl : rest = rest' := Option.some.inj (by rw [← hrest, hothers, hrest'])
      refine ofDocument_congr (hparse.trans hbuild) (hparse'.trans hbuild')
        (ofEntries_of_section ?_ fun other hne => (hget other hne).trans (hget' other hne).symm)
      rintro field rfl
      rw [valueOf_of_has hhas, valueOf_of_has hhas', hsame]

/-- Documents that differ in nothing that matters come to the same. -/
theorem Interchangeable.ofDocument_eq {document other : String}
    (h : Interchangeable document other) : ofDocument document = ofDocument other := by
  cases h with
  | unknownNames hdocument hother hknown =>
    exact ofDocument_congr hdocument hother (ofEntries_of_known hknown)
  | byPosition hdocument hother harray htable hrest =>
    refine ofDocument_congr hdocument hother (ofEntries_of_section ?_ hrest)
    intro field hhome
    rw [← hhome] at harray htable
    rw [valueOf_of_array harray, valueOf_of_table htable, get?_zip]
  | otherwiseWritten hdocument hother hwrites hwrites' hcontent hothers =>
    exact ofDocument_of_writes hdocument hother hwrites hwrites' hcontent hothers

/-- A configuration document is laid over the defaults field by field. It is refused exactly when
it is not TOML, or when a section is none or a field is given what does not fit; a bare moment
passes for an empty section. Nothing else in it matters: not the names that mean nothing, not how
a table is written, and not whether a section goes by names or by position. -/
theorem ofDocument_overlays :
    (∀ document, Refused document ↔
      ∃ failure, ofDocument document = .error failure ∧ failure.kind = .invalidParameter) ∧
    (∀ document, ¬ Refused document → ∃ entries config,
      Toml.parse document = some entries ∧ ofDocument document = .ok config ∧
        Overlays entries config) ∧
    ∀ document other, Interchangeable document other → ofDocument document = ofDocument other := by
  refine ⟨fun document => ?_, fun document haccepted => ?_, fun document other h => h.ofDocument_eq⟩
  · rcases ofDocument_cases document with
      ⟨hrefused, hfailure⟩ | ⟨entries, config, hparse, hfit, hok, -⟩
    · exact iff_of_true hrefused hfailure
    · refine iff_of_false ?_ ?_
      · rintro (hnone | ⟨hsome, hunfit⟩)
        · cases hnone.symm.trans hparse
        · cases hsome.symm.trans hparse
          exact hfit hunfit
      · rintro ⟨failure, herror, -⟩
        cases herror.symm.trans hok
  · rcases ofDocument_cases document with
      ⟨hrefused, -⟩ | ⟨entries, config, hparse, -, hok, hoverlays⟩
    · exact absurd hrefused haccepted
    · exact ⟨entries, config, hparse, hok, hoverlays⟩

/-- A document that gives one field of three and a name that means nothing; written with a dotted
name, without the other name, and by position. -/
theorem ofDocument_partial :
    let document := "title = \"t\"\n[paths]\nefi_root = \"/e\"\n"
    let dotted := "title = \"t\"\npaths.efi_root = \"/e\"\n"
    let untitled := "paths.efi_root = \"/e\"\n"
    let positional := "paths = [\"/e\"]\n"
    ofDocument document = ofDocument dotted ∧ ofDocument document = ofDocument untitled ∧
      ofDocument positional = ofDocument untitled ∧
      ∃ config, ofDocument document = .ok config ∧ config.locations.efiRoot.text = "/e" ∧
        config.locations.efivarsDir.text = "/sys/firmware/efi/efivars" ∧
        config.subleafCap = 64 := by
  have hdocument : statementsOf "title = \"t\"\n[paths]\nefi_root = \"/e\"\n" =
      some [.assign ["title"] (.text "t"), .header ["paths"],
        .assign ["efi_root"] (.text "/e")] := rfl
  have hdotted : statementsOf "title = \"t\"\npaths.efi_root = \"/e\"\n" =
      some [.assign ["title"] (.text "t"), .assign ["paths", "efi_root"] (.text "/e")] := rfl
  have huntitled : statementsOf "paths.efi_root = \"/e\"\n" =
      some [.assign ["paths", "efi_root"] (.text "/e")] := rfl
  have hpositional : statementsOf "paths = [\"/e\"]\n" =
      some [.assign ["paths"] (.array [.text "/e"])] := rfl
  intro document dotted untitled positional
  obtain ⟨hrefused, haccepted, hsame⟩ := ofDocument_overlays
  have hparse : Toml.parse document =
      some [("title", .text "t"), ("paths", .table [("efi_root", .text "/e")])] := by
    rw [parse_eq, hdocument]
    rfl
  have hbare : Toml.parse untitled = some [("paths", .table [("efi_root", .text "/e")])] := by
    rw [parse_eq, huntitled]
    rfl
  have harray : Toml.parse positional = some [("paths", .array [.text "/e"])] := by
    rw [parse_eq, hpositional]
    rfl
  have hheader : Writes "paths" _ (Placed.about "paths" (placed [] [.assign ["title"] (.text "t"),
      .header ["paths"], .assign ["efi_root"] (.text "/e")])) :=
    .underHeader [(["efi_root"], .text "/e")]
  have hwritten : Interchangeable document dotted :=
    .otherwiseWritten hdocument hdotted hheader (.dotted [(["efi_root"], .text "/e")] (by simp))
      rfl rfl
  have hitems : Entries.get? [("paths", .array [.text "/e"])] (Field.path .efiRoot).home =
      some (.array [.text "/e"]) := rfl
  have hlast : Interchangeable positional untitled := by
    refine .byPosition harray hbare hitems rfl fun name hname => ?_
    have hother : "paths" ≠ name := hname.symm
    simp [Entries.get?, hother]
  have hfit : ¬ Refused document := by
    rw [hrefused]
    rintro ⟨failure, herror, -⟩
    rw [ofDocument, hparse] at herror
    cases herror
  obtain ⟨entries, config, hentries, hconfig, hoverlays⟩ := haccepted document hfit
  obtain rfl := Option.some.inj (hparse.symm.trans hentries)
  have hroot : Value.text "/e" = .text config.locations.efiRoot.text :=
    hoverlays.given (.path .efiRoot) (.text "/e") rfl
  have hvars : config.locations.efivarsDir = ⟨"/sys/firmware/efi/efivars"⟩ :=
    hoverlays.omitted (.path .efivarsDir) rfl
  have hcap : config.subleafCap = 64 := hoverlays.omitted .cap rfl
  exact ⟨hsame _ _ hwritten, hsame _ _ (.unknownNames hparse hbare rfl), hsame _ _ hlast,
    config, hconfig, (Value.text.inj hroot).symm, congrArg Path.text hvars, hcap⟩

end Config

end SgxActivation
