import Mathlib.Data.List.Basic
import Mathlib.Data.List.Induction
import SgxActivation.Filesystem.Node
import SgxActivation.Proofs.Filesystem.Route

/-!
# Canonical paths

Every location has a path that spells it out: its names, joined to the root one after the
other. Such a path is **canonical**. It has no empty part, no dots and, but for the root's
own, no slash at its end.

* **`ProperName`** — a name that an entry of a directory can have;
* **`Canonical`** — a path of an acceptable length that spells out a location;
* `ofPath_pathOf` — a canonical path is taken apart into the names of its location;
* `pathOf_inj` — so it tells its location.
-/

namespace SgxActivation.Filesystem

/-- A name that an entry of a directory can have. -/
structure ProperName (name : String) : Prop where
  filled : name ≠ ""
  here : name ≠ "."
  above : name ≠ ".."
  slash : '/' ∉ name.toList
  nul : '\x00' ∉ name.toList
  short : name.utf8ByteSize ≤ Route.nameLimit

instance (name : String) : Decidable (ProperName name) :=
  decidable_of_iff (name ≠ "" ∧ name ≠ "." ∧ name ≠ ".." ∧ '/' ∉ name.toList ∧
      '\x00' ∉ name.toList ∧ name.utf8ByteSize ≤ Route.nameLimit)
    ⟨fun ⟨filled, here, above, slash, nul, short⟩ => ⟨filled, here, above, slash, nul, short⟩,
      fun h => ⟨h.filled, h.here, h.above, h.slash, h.nul, h.short⟩⟩

/-- A location all of whose names are proper. -/
def Proper (location : Location) : Prop := ∀ name ∈ location, ProperName name

instance (location : Location) : Decidable (Proper location) :=
  inferInstanceAs (Decidable (∀ name ∈ location, ProperName name))

/-- The path that spells out a location. -/
def pathOf (location : Location) : Path := location.foldl Path.join ⟨"/"⟩

example : pathOf ["sys", "firmware", "efi"] = ⟨"/sys/firmware/efi"⟩ := by decide

theorem pathOf_concat (location : Location) (name : String) :
    pathOf (location ++ [name]) = (pathOf location).join name := by
  simp [pathOf, List.foldl_append]

/-- A path that spells out a location, and is no longer than a path may be. -/
def Canonical (path : Path) : Prop :=
  ∃ location, Proper location ∧ path = pathOf location ∧
    path.text.utf8ByteSize < Route.pathLimit

namespace Route

theorem pieces_of_not_mem {text : List Char} (h : '/' ∉ text) : pieces text = [text] := by
  induction text with
  | nil => rfl
  | cons c rest ih =>
    have hc : c ≠ '/' := by
      rintro rfl
      exact h List.mem_cons_self
    have hrest : '/' ∉ rest := fun member => h (List.mem_cons_of_mem _ member)
    simp [pieces, hc, ih hrest]

end Route

/-- A proper name is one part of a path. -/
theorem ProperName.plain {name : String} (proper : ProperName name) : Route.Plain name where
  part := by
    have hempty : name.toList ≠ [] := fun h => proper.filled (String.toList_inj.1 h)
    have hhere : name.toList ≠ ['.'] := fun h => proper.here (String.toList_inj.1 h)
    have habove : name.toList ≠ ['.', '.'] := fun h => proper.above (String.toList_inj.1 h)
    have hpart : Route.part name.toList = .name name := by
      unfold Route.part
      split
      · exact absurd ‹_› hhere
      · exact absurd ‹_› habove
      · rw [String.ofList_toList]
    simp [Route.innerParts, Route.pieces_of_not_mem proper.slash, hempty, hpart]
  start := by
    unfold Path.isAbsolute
    cases hhead : name.toList.head? with
    | none => rfl
    | some c =>
      have hc : c ≠ '/' := by
        rintro rfl
        exact proper.slash (List.mem_of_head? hhead)
      simpa using hc
  stop h := proper.slash (List.mem_of_getLast? h)

/-! ## Paths of locations -/

section

variable {location other : Location} {name : String}

theorem Proper.of_append {first second : Location} (h : Proper (first ++ second)) :
    Proper first ∧ Proper second :=
  ⟨fun name member => h name (List.mem_append_left _ member),
    fun name member => h name (List.mem_append_right _ member)⟩

theorem Proper.concat (h : Proper location) (proper : ProperName name) :
    Proper (location ++ [name]) :=
  List.forall_mem_append.2 ⟨h, List.forall_mem_singleton.2 proper⟩

theorem spells (h : Proper location) : (pathOf location).isAbsolute = true ∧
    Route.innerParts (pathOf location).text.toList = location.map .name := by
  -- From the end, because a path grows by joining a name behind it.
  induction location using List.reverseRecOn with
  | nil => decide
  | append_singleton location name ih =>
    obtain ⟨hlocation, hname⟩ := h.of_append
    obtain ⟨habsolute, hparts⟩ := ih hlocation
    have hplain := (hname name (by simp)).plain
    obtain ⟨slash, -, hjoined⟩ := Route.innerParts_join hplain habsolute
    rw [pathOf_concat]
    refine ⟨congrArg Route.absolute (Route.ofText_join hplain habsolute), ?_⟩
    rw [hjoined, hparts, List.map_append]
    rfl

theorem ofText_pathOf (h : Proper location) :
    Route.ofText (pathOf location).text = ⟨true, location.map .name⟩ := by
  rcases List.eq_nil_or_concat location with rfl | ⟨location, name, rfl⟩
  · decide
  · rw [List.concat_eq_append] at h ⊢
    obtain ⟨hlocation, hname⟩ := h.of_append
    obtain ⟨habsolute, hparts⟩ := spells hlocation
    rw [pathOf_concat, Route.ofText_join (hname name (by simp)).plain habsolute, hparts,
      List.map_append]
    rfl

/-- A path tells the location that it spells out. -/
theorem pathOf_inj (h : Proper location) (h' : Proper other)
    (same : pathOf location = pathOf other) : location = other := by
  have hnames : location.map Part.name = other.map Part.name := by
    rw [← (spells h).2, ← (spells h').2, same]
  exact List.map_injective_iff.2 (fun _ _ => Part.name.inj) hnames

theorem mem_join {directory : Path} {c : Char} (h : c ∈ (directory.join name).text.toList) :
    c ∈ directory.text.toList ∨ c = '/' ∨ c ∈ name.toList := by
  unfold Path.join at h
  split at h
  · exact .inr (.inr h)
  · split at h
    · simp only [String.toList_append, List.mem_append] at h
      rcases h with hdirectory | hname
      · exact .inl hdirectory
      · exact .inr (.inr hname)
    · simp only [String.toList_append, List.mem_append] at h
      rcases h with (hdirectory | hslash) | hname
      · exact .inl hdirectory
      · exact .inr (.inl (List.mem_singleton.1 hslash))
      · exact .inr (.inr hname)

theorem nul_not_mem_pathOf (h : Proper location) : '\x00' ∉ (pathOf location).text.toList := by
  induction location using List.reverseRecOn with
  | nil => decide
  | append_singleton location name ih =>
    obtain ⟨hlocation, hname⟩ := h.of_append
    intro hnul
    rw [pathOf_concat] at hnul
    rcases mem_join hnul with hdirectory | hslash | hlast
    · exact ih hlocation hdirectory
    · exact absurd hslash (by decide)
    · exact (hname name (by simp)).nul hlast

/-- A canonical path of an acceptable length is taken apart into its names. -/
theorem ofPath_pathOf (h : Proper location)
    (short : (pathOf location).text.utf8ByteSize < Route.pathLimit) :
    Route.ofPath (pathOf location) = .ok ⟨true, location.map .name⟩ := by
  refine Route.ofPath_ok_iff.2 ⟨nul_not_mem_pathOf h, ?_, short, (ofText_pathOf h).symm⟩
  have habsolute := (spells h).1
  unfold Path.isAbsolute at habsolute
  unfold Path.isEmpty
  cases htext : (pathOf location).text.toList with
  | nil => simp [htext] at habsolute
  | cons c rest => rfl

end

end SgxActivation.Filesystem
