import SgxActivation.Config
import SgxActivation.Filesystem.Route

/-!
# Routes to firmware variables

* `innerParts_join` — a plain name behind a directory's text adds one part;
* `ofText_join` — so the route to a firmware variable is that of the variable
  directory, without a demand, and then the variable's name;
* `parts_ne_nil` — a relative path goes somewhere;
* `ofPath_of_join` — where the path of a variable is not refused as a whole, that
  of the directory is not either.
-/

namespace SgxActivation.Filesystem.Route

theorem pieces_ne_nil (text : List Char) : pieces text ≠ [] := by
  cases text with
  | nil => simp [pieces]
  | cons c rest =>
    simp only [pieces]
    split
    · simp
    · split <;> simp

/-- A slash separates the pieces before it from those behind it. -/
theorem pieces_append (first second : List Char) :
    pieces (first ++ '/' :: second) = pieces first ++ pieces second := by
  induction first with
  | nil => simp [pieces]
  | cons c rest ih =>
    simp only [List.cons_append, pieces]
    split
    · rw [ih]
      rfl
    · rw [ih]
      obtain ⟨piece, pieces', hpieces⟩ := List.exists_cons_of_ne_nil (pieces_ne_nil rest)
      rw [hpieces]
      rfl

theorem innerParts_append (first second : List Char) :
    innerParts (first ++ '/' :: second) = innerParts first ++ innerParts second := by
  simp [innerParts, pieces_append]

theorem ofPath_ok_iff {path : Path} {route : Route} :
    ofPath path = .ok route ↔ '\x00' ∉ path.text.toList ∧ path.isEmpty = false ∧
      path.text.utf8ByteSize < pathLimit ∧ route = ofText path.text := by
  unfold ofPath
  by_cases hnul : '\x00' ∈ path.text.toList
  · simp [hnul]
  by_cases hempty : path.isEmpty = true
  · simp [hnul, hempty]
  by_cases hlong : pathLimit ≤ path.text.utf8ByteSize
  · have hnot : ¬ path.text.utf8ByteSize < pathLimit := by omega
    simp [hnul, hempty, hlong, hnot]
  · have hshort : path.text.utf8ByteSize < pathLimit := by omega
    simp [hnul, hempty, hlong, hshort, eq_comm]

/-- A name that is one part by itself and starts and ends without a slash. -/
structure Plain (name : String) : Prop where
  part : innerParts name.toList = [.name name]
  start : (Path.mk name).isAbsolute = false
  stop : name.toList.getLast? ≠ some '/'

theorem plain_offerVariable : Plain Locations.offerVariable := by
  constructor <;> decide

theorem plain_requestVariable : Plain Locations.requestVariable := by
  constructor <;> decide

section

variable {directory : Path} {name : String}

/-- A plain name behind a directory's text, after a slash if need be, adds one
part. -/
theorem innerParts_join (plain : Plain name) (absolute : directory.isAbsolute = true) :
    ∃ slash, (directory.join name).text = directory.text ++ slash ++ name ∧
      innerParts (directory.join name).text.toList =
        innerParts directory.text.toList ++ [.name name] := by
  have hstart := plain.start
  by_cases hopen : directory.endsOpen = true
  · -- The directory's text ends with a slash, behind which there is an empty piece.
    obtain ⟨before, hbefore⟩ : ∃ before, directory.text.toList = before ++ ['/'] := by
      rw [Path.endsOpen, Path.isEmpty_of_isAbsolute absolute, Bool.false_or] at hopen
      exact List.getLast?_eq_some_iff.1 (by simpa using hopen)
    refine ⟨"", by simp [Path.join, hstart, hopen], ?_⟩
    have hlonger := innerParts_append before name.toList
    have hsame : innerParts (before ++ ['/']) = innerParts before := by
      rw [innerParts_append]
      simp [innerParts, pieces]
    rw [plain.part] at hlonger
    simp [Path.join, hstart, hopen, hbefore, hlonger, hsame]
  · refine ⟨"/", by simp [Path.join, hstart, hopen], ?_⟩
    have hlonger := innerParts_append directory.text.toList name.toList
    rw [plain.part] at hlonger
    simp [Path.join, hstart, hopen, hlonger]

/-- The route to a plain name in a directory, named by an absolute text. -/
theorem ofText_join (plain : Plain name) (absolute : directory.isAbsolute = true) :
    ofText (directory.join name).text =
      ⟨true, innerParts directory.text.toList ++ [.name name]⟩ := by
  obtain ⟨slash, htext, hparts⟩ := innerParts_join plain absolute
  have hname : name.toList ≠ [] := by
    intro hempty
    have hpart := plain.part
    simp [hempty, innerParts, pieces] at hpart
  have hhead : (directory.join name).text.toList.head? = some '/' := by
    have habsolute : directory.text.toList.head? = some '/' := by
      simpa [Path.isAbsolute] using absolute
    simp [htext, List.head?_append, habsolute]
  have hlast : (directory.join name).text.toList.getLast? = name.toList.getLast? := by
    obtain ⟨last, hlast⟩ := Option.isSome_iff_exists.1 (List.getLast?_isSome.2 hname)
    simp [htext, List.getLast?_append, hlast]
  have hdemand : demandsDirectory (directory.join name).text.toList = false := by
    have hstop := plain.stop
    simp [demandsDirectory, hlast, hstop]
  simp [ofText, hhead, hdemand, hparts]

theorem isAbsolute_join (plain : Plain name) (absolute : directory.isAbsolute = true) :
    (directory.join name).isAbsolute = true :=
  congrArg Route.absolute (ofText_join plain absolute)

/-- Where the path of a plain name in a directory is not refused as a whole, that
of the directory is not. -/
theorem ofPath_of_join (plain : Plain name) (absolute : directory.isAbsolute = true) {route : Route}
    (h : ofPath (directory.join name) = .ok route) :
    ofPath directory = .ok (ofText directory.text) := by
  obtain ⟨slash, htext, -⟩ := innerParts_join plain absolute
  obtain ⟨hnul, -, hshort, -⟩ := ofPath_ok_iff.1 h
  rw [htext] at hnul hshort
  refine ofPath_ok_iff.2 ⟨?_, ?_, ?_, rfl⟩
  · intro member
    exact hnul (by simp [member])
  · exact Path.isEmpty_of_isAbsolute absolute
  · rw [String.utf8ByteSize_append, String.utf8ByteSize_append] at hshort
    omega

end

end SgxActivation.Filesystem.Route
