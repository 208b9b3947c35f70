import SgxActivation.Filesystem.Store
import SgxActivation.Proofs.Filesystem.CanonicalPath
import SgxActivation.Proofs.Filesystem.Store
import SgxActivation.Proofs.HonestStore

/-!
# Plain trees

A **plain** tree has directories and regular files only, all of which their owner may use,
and no limit to the size of files. On such a tree a canonical path leads to the location
that it spells out, or nowhere, and the tree is the same as the table of its paths.

* **`Files.Plain`**;
* `Plain.walk` — a lookup along names finds what is there, or finds it missing;
* **`Files.mirror`** — a scripted store with one entry for every path of the tree;
* `Plain.read` — a read delivers the front of a long enough file, or fails;
* `Plain.write`, `Filed.plain` — a write puts a file there and leaves the tree plain.
-/

namespace SgxActivation.Filesystem

open Scripted (Content Entries)

/-- A directory or a file that its owner may use in every way. -/
def Node.Granted : Node → Prop
  | .directory mode => mode.readable = true ∧ mode.writable = true ∧ mode.searchable = true
  | .file mode _ => mode.readable = true ∧ mode.writable = true
  | .link _ | .device _ => False

instance : DecidablePred Node.Granted
  | .directory mode => inferInstanceAs
      (Decidable (mode.readable = true ∧ mode.writable = true ∧ mode.searchable = true))
  | .file mode _ => inferInstanceAs (Decidable (mode.readable = true ∧ mode.writable = true))
  | .link _ | .device _ => inferInstanceAs (Decidable False)

/-- What a node is in a store without links and devices. -/
def Node.content? : Node → Option Content
  | .directory _ => some .directory
  | .file _ bytes => some (.file bytes)
  | .link _ | .device _ => none

namespace Files

variable {files : Files} {location : Location} {name : String} {node : Node}

/-- A tree of directories and regular files without links, with all permissions granted and
no size limit. -/
structure Plain (files : Files) : Prop where
  root : ∃ mode, files.node? [] = some (.directory mode)
  above : ∀ location name node, files.node? (location ++ [name]) = some node →
    ∃ mode, files.node? location = some (.directory mode)
  proper : ∀ location node, files.node? location = some node → Proper location
  granted : ∀ location node, files.node? location = some node → node.Granted
  unlimited : files.sizeLimit = none

namespace Plain

/-- Whether a tree is plain can be told from its nodes, one by one. -/
theorem of_pairs (root : files.isDirectory [] = true)
    (pairs : ∀ pair ∈ files.nodes.pairs, Proper pair.1 ∧ pair.2.Granted ∧
      (pair.1 = [] ∨ files.isDirectory pair.1.dropLast = true))
    (unlimited : files.sizeLimit = none) : files.Plain := by
  have hpairs : ∀ location node, files.node? location = some node →
      Proper location ∧ node.Granted ∧
        (location = [] ∨ files.isDirectory location.dropLast = true) :=
    fun location node h => pairs (location, node) (Table.mem_of_find? h)
  have hrooted : files.Rooted := .of_pairs root fun pair member => (pairs pair member).2.2
  exact ⟨hrooted.root, hrooted.above, fun location node h => (hpairs location node h).1,
    fun location node h => (hpairs location node h).2.1, unlimited⟩

theorem content?_isSome (plain : files.Plain) (there : files.node? location = some node) :
    node.content?.isSome = true := by
  have hgranted := plain.granted location node there
  cases node with
  | directory mode | file mode bytes => rfl
  | link target | device device => exact absurd hgranted id

theorem searchable {mode : Mode} (plain : files.Plain)
    (there : files.node? location = some (.directory mode)) :
    files.Searchable .owner location := by
  obtain ⟨-, -, hsearchable⟩ := plain.granted location _ there
  exact ⟨mode, there, by simpa [Caller.maySearch] using hsearchable⟩

/-- Below nothing there is nothing, and below a file neither. -/
theorem above_all (plain : files.Plain) {more : Location} (below : more ≠ [])
    (there : files.node? (location ++ more) = some node) :
    ∃ mode, files.node? location = some (.directory mode) := by
  induction more using List.reverseRecOn generalizing node with
  | nil => exact absurd rfl below
  | append_singleton more name ih =>
    rw [← List.append_assoc] at there
    obtain ⟨mode, hmode⟩ := plain.above _ name node there
    by_cases hmore : more = []
    · subst hmore
      exact ⟨mode, by simpa using hmode⟩
    · exact ih hmore hmode

end Plain

/-- How a lookup ends that finds nothing. -/
def Missing (result : Except SystemError Found) : Prop :=
  (∃ directory name, result = .ok (.vacancy directory name)) ∨ result = .error .noEntry ∨
    result = .error .notDirectory

/-- From a file, a lookup gets nowhere. -/
theorem walk_from_file {caller : Caller} {purpose : Purpose} {mode : Mode} {bytes : Bytes}
    (links : Nat) (rest : List Part) (file : files.node? location = some (.file mode bytes)) :
    files.walk caller purpose links location (.name name :: rest) = .error .notDirectory := by
  have hsearch : files.requireSearch caller location = .error .notDirectory := by
    unfold requireSearch requireDirectory
    rw [file]
    rfl
  rw [walk_eq]
  show (files.requireSearch caller location >>= fun _ => _) = _
  rw [hsearch]
  rfl

/-- A lookup along names, from something that is there, ends where they lead, or it finds
nothing where nothing is. -/
theorem Plain.walk (plain : files.Plain) (links : Nat) (names : Location)
    (short : ∀ name ∈ names, name.utf8ByteSize ≤ Route.nameLimit)
    (start : files.node? location = some node) :
    (∃ last, files.node? (location ++ names) = some last ∧
        files.walk .owner .inspect links location (names.map .name) =
          .ok (.node (location ++ names))) ∨
      files.node? (location ++ names) = none ∧
        Missing (files.walk .owner .inspect links location (names.map .name)) := by
  induction names generalizing location node with
  | nil =>
    refine .inl ⟨node, by rwa [List.append_nil], ?_⟩
    rw [walk_eq, List.append_nil]
    rfl
  | cons name rest ih =>
    obtain ⟨hshort, hshorts⟩ := List.forall_mem_cons.1 short
    rw [List.map_cons]
    cases node with
    | directory mode =>
      rw [walk_name (plain.searchable start) hshort (by simp)]
      have hsplit : location ++ name :: rest = location ++ [name] ++ rest := by simp
      rw [hsplit]
      cases hnext : files.node? (location ++ [name]) with
      | none =>
        refine .inr ⟨?_, ?_⟩
        · cases hlast : files.node? (location ++ [name] ++ rest) with
          | none => rfl
          | some last =>
            by_cases hrest : rest = []
            · rw [hrest, List.append_nil, hnext] at hlast
              cases hlast
            · obtain ⟨mode', hmode'⟩ := plain.above_all hrest hlast
              cases hnext.symm.trans hmode'
        · cases rest with
          | nil => exact .inl ⟨location, name, rfl⟩
          | cons other others => exact .inr (.inl rfl)
      | some next =>
        cases next with
        | directory mode' => exact ih hshorts hnext
        | file mode' bytes => exact ih hshorts hnext
        | link target => exact absurd (plain.granted _ _ hnext) id
        | device device => exact absurd (plain.granted _ _ hnext) id
    | file mode bytes =>
      refine .inr ⟨?_, .inr (.inr (walk_from_file links _ start))⟩
      cases hlast : files.node? (location ++ name :: rest) with
      | none => rfl
      | some last =>
        obtain ⟨mode', hmode'⟩ := plain.above_all (by simp) hlast
        cases start.symm.trans hmode'
    | link target => exact absurd (plain.granted location _ start) id
    | device device => exact absurd (plain.granted location _ start) id

/-! ## Canonical paths on a plain tree -/

theorem find_pathOf (files : Files) (purpose : Purpose) (proper : Proper location)
    (short : (pathOf location).text.utf8ByteSize < Route.pathLimit) :
    files.find .owner purpose (pathOf location) =
      files.walk .owner purpose linkLimit [] (location.map .name) := by
  unfold find
  rw [ofPath_pathOf proper short]
  rfl

/-- A canonical path leads to its location, or nowhere. -/
theorem Plain.locate (plain : files.Plain) (proper : Proper location)
    (short : (pathOf location).text.utf8ByteSize < Route.pathLimit) :
    (∃ node, files.node? location = some node ∧
        files.locate .owner (pathOf location) = .ok location) ∨
      files.node? location = none ∧ (files.locate .owner (pathOf location) = .error .noEntry ∨
        files.locate .owner (pathOf location) = .error .notDirectory) := by
  obtain ⟨mode, hroot⟩ := plain.root
  unfold Files.locate
  rw [find_pathOf files .inspect proper short]
  rcases plain.walk linkLimit location (fun name member => (proper name member).short) hroot with
    ⟨node, hnode, hwalk⟩ | ⟨hnone, hwalk⟩
  · rw [hwalk]
    exact .inl ⟨node, hnode, rfl⟩
  · refine .inr ⟨hnone, ?_⟩
    rcases hwalk with ⟨directory, name, hvacancy⟩ | herror | herror
    · rw [hvacancy]
      exact .inl rfl
    · rw [herror]
      exact .inl rfl
    · rw [herror]
      exact .inr rfl

/-- What is there may be read. -/
theorem Plain.openForReading (plain : files.Plain) (proper : Proper location)
    (short : (pathOf location).text.utf8ByteSize < Route.pathLimit)
    (there : files.node? location = some node) :
    files.openForReading (pathOf location) = .ok location := by
  have hcheck : checkRead (files.node? location) = .ok () := by
    have hgranted := plain.granted location node there
    rw [there]
    cases node with
    | directory mode => simp [checkRead, Caller.mayRead, hgranted.1]
    | file mode bytes => simp [checkRead, Caller.mayRead, hgranted.1]
    | link target | device device => exact absurd hgranted id
  unfold Files.openForReading
  rcases plain.locate proper short with ⟨-, -, hlocate⟩ | ⟨hnone, -⟩
  · rw [hlocate]
    show (checkRead (files.node? location) >>= fun _ => _) = _
    rw [hcheck]
    rfl
  · cases hnone.symm.trans there

/-- What is missing cannot be read, but not for want of privilege. -/
theorem Plain.openForReading_missing (plain : files.Plain) (proper : Proper location)
    (short : (pathOf location).text.utf8ByteSize < Route.pathLimit)
    (missing : files.node? location = none) :
    ∃ error, files.openForReading (pathOf location) = .error error ∧ error ≠ .accessDenied := by
  unfold Files.openForReading
  rcases plain.locate proper short with ⟨node, hnode, -⟩ | ⟨-, hmissing | hmissing⟩
  · cases missing.symm.trans hnode
  · rw [hmissing]
    exact ⟨.noEntry, rfl, by simp⟩
  · rw [hmissing]
    exact ⟨.notDirectory, rfl, by simp⟩

/-! ## The tree as a table -/

/-- The scripted store that has one entry, without rules, for every path of the tree. -/
def mirror (files : Files) : Entries where
  pairs := files.nodes.keys.filterMap fun location =>
    (files.node? location).bind fun node =>
      node.content?.map fun content => (pathOf location, { content := some content })

theorem mem_mirror {path : Path} {entry : Scripted.Entry} :
    (path, entry) ∈ files.mirror.pairs ↔ ∃ location node content,
      files.node? location = some node ∧ node.content? = some content ∧
      path = pathOf location ∧ entry = { content := some content } := by
  unfold mirror
  simp only [List.mem_filterMap, Table.mem_keys]
  constructor
  · rintro ⟨location, -, h⟩
    obtain ⟨node, hnode, h⟩ := Option.bind_eq_some_iff.1 h
    obtain ⟨content, hcontent, h⟩ := Option.map_eq_some_iff.1 h
    obtain ⟨rfl, rfl⟩ := Prod.mk.inj h
    exact ⟨location, node, content, hnode, hcontent, rfl, rfl⟩
  · rintro ⟨location, node, content, hnode, hcontent, rfl, rfl⟩
    have hthere : files.nodes.get? location = some node := hnode
    refine ⟨location, by rw [hthere]; rfl, ?_⟩
    rw [hnode]
    show Option.map _ node.content? = _
    rw [hcontent]
    rfl

theorem unruled_mirror (files : Files) : files.mirror.Unruled := by
  intro path
  unfold Entries.entry
  cases hentry : files.mirror.get? path with
  | none => rfl
  | some entry =>
    obtain ⟨location, node, content, -, -, -, rfl⟩ := mem_mirror.1 (Table.mem_of_find? hentry)
    rfl

/-- In the mirror, a path holds what is at the location that it spells out. -/
theorem Plain.content?_mirror (plain : files.Plain) {path : Path} {content : Content} :
    files.mirror.content? path = some content ↔ ∃ location node,
      files.node? location = some node ∧ node.content? = some content ∧
      path = pathOf location := by
  unfold Entries.content? Entries.entry
  constructor
  · intro h
    cases hentry : files.mirror.get? path with
    | none =>
      rw [hentry] at h
      cases h
    | some entry =>
      rw [hentry] at h
      obtain ⟨location, node, content', hnode, hcontent, hpath, rfl⟩ :=
        mem_mirror.1 (Table.mem_of_find? hentry)
      have hsame : content' = content := Option.some.inj h
      subst hsame
      exact ⟨location, node, hnode, hcontent, hpath⟩
  · rintro ⟨location, node, hnode, hcontent, rfl⟩
    have hmember : (pathOf location, { content := some content }) ∈ files.mirror.pairs :=
      mem_mirror.2 ⟨location, node, content, hnode, hcontent, rfl, rfl⟩
    have hthere : (files.mirror.get? (pathOf location)).isSome = true :=
      Table.find?_isSome_iff.2 (List.mem_map_of_mem hmember)
    obtain ⟨entry, hentry⟩ := Option.isSome_iff_exists.1 hthere
    obtain ⟨location', node', content', hnode', hcontent', hpath, rfl⟩ :=
      mem_mirror.1 (Table.mem_of_find? hentry)
    -- No other location has the same path.
    obtain rfl := pathOf_inj (plain.proper _ _ hnode) (plain.proper _ _ hnode') hpath
    cases hnode.symm.trans hnode'
    rw [hentry]
    exact hcontent'.symm.trans hcontent

theorem Plain.content?_pathOf (plain : files.Plain) (proper : Proper location) :
    files.mirror.content? (pathOf location) = (files.node? location).bind Node.content? := by
  refine Option.ext fun content => ?_
  rw [plain.content?_mirror, Option.bind_eq_some_iff]
  constructor
  · rintro ⟨location', node, hnode, hcontent, hpath⟩
    obtain rfl := pathOf_inj proper (plain.proper _ _ hnode) hpath
    exact ⟨node, hnode, hcontent⟩
  · rintro ⟨node, hnode, hcontent⟩
    exact ⟨location, node, hnode, hcontent, rfl⟩

/-! ## Reading -/

/-- A read delivers the front of a long enough file, or fails, but not for want of
privilege. -/
theorem Plain.read (plain : files.Plain) (proper : Proper location)
    (short : (pathOf location).text.utf8ByteSize < Route.pathLimit) (length : Nat)
    (filled : length ≠ 0) :
    (∃ record, View.front? files.mirror.content? (pathOf location) length = some record ∧
        (files.read (pathOf location) length).answer = .ok record) ∨
      View.front? files.mirror.content? (pathOf location) length = none ∧
        ∃ detail, (files.read (pathOf location) length).answer =
          .error ⟨.unexpected, detail⟩ := by
  have hcontent := plain.content?_pathOf proper
  unfold Files.read
  cases hnode : files.node? location with
  | none =>
    obtain ⟨error, hopens, hother⟩ := plain.openForReading_missing proper short hnode
    rw [hnode] at hcontent
    rw [hopens]
    refine .inr ⟨by simp [View.front?, hcontent], ?_⟩
    simp [openFailure, failureAt, hother]
  | some node =>
    have hgranted := plain.granted _ _ hnode
    rw [plain.openForReading proper short hnode]
    rw [hnode] at hcontent
    cases node with
    | directory mode =>
      refine .inr ⟨by simp [View.front?, hcontent, Node.content?], ?_⟩
      exact ⟨_, recordAt_directory hnode filled⟩
    | file mode bytes =>
      have hrecord : files.recordAt (pathOf location) location length = _ :=
        recordAt_file length hnode
      by_cases henough : length ≤ bytes.length
      · refine .inl ⟨bytes.take length, View.front?_of_file hcontent henough, ?_⟩
        exact hrecord.trans (if_pos henough)
      · refine .inr ⟨by simp [View.front?, hcontent, Node.content?, henough], ?_⟩
        exact ⟨_, hrecord.trans (if_neg henough)⟩
    | link target | device device => exact absurd hgranted id

/-! ## Writing -/

section

variable {directory : Location} {mode : Mode}

/-- Looking for a place to create a file in a directory finds the file, or a vacancy. -/
theorem Plain.find_create (plain : files.Plain) (proper : Proper (directory ++ [name]))
    (short : (pathOf (directory ++ [name])).text.utf8ByteSize < Route.pathLimit)
    (inside : files.node? directory = some (.directory mode)) :
    files.find .owner .create (pathOf (directory ++ [name])) =
      .ok (if (files.node? (directory ++ [name])).isSome then .node (directory ++ [name])
        else .vacancy directory name) := by
  obtain ⟨root, hroot⟩ := plain.root
  obtain ⟨hproper, hname⟩ := proper.of_append
  have hshort := (hname name (by simp)).short
  have hwalk : files.walk .owner .inspect linkLimit [] (directory.map .name) =
      .ok (.node directory) := by
    rcases plain.walk linkLimit directory (fun name member => (hproper name member).short) hroot
      with ⟨-, -, hwalk⟩ | ⟨hnone, -⟩
    · exact hwalk
    · cases hnone.symm.trans inside
  obtain ⟨cost, hcost, hleads⟩ := along_of_walk (by simp) hwalk
  rw [find_pathOf files .create proper short, List.map_append]
  show files.walk .owner .create linkLimit [] (directory.map .name ++ [.name name]) = _
  rw [walk_append hleads hcost [.name name] (fun _ => rfl),
    walk_name (plain.searchable inside) hshort (fun _ => .inl rfl)]
  cases hnode : files.node? (directory ++ [name]) with
  | none => rfl
  | some node =>
    cases node with
    | directory mode | file mode bytes =>
      show files.walk .owner .create _ (directory ++ [name]) [] = _
      rw [walk_eq]
      rfl
    | link target | device device => exact absurd (plain.granted _ _ hnode) id

/-- Opening a file for writing in a directory leaves an empty file that its owner may use. -/
theorem Plain.openForWriting (plain : files.Plain) (proper : Proper (directory ++ [name]))
    (short : (pathOf (directory ++ [name])).text.utf8ByteSize < Route.pathLimit)
    (inside : files.node? directory = some (.directory mode))
    (nowhere : ∀ mode', files.node? (directory ++ [name]) ≠ some (.directory mode')) :
    ∃ mode', mode'.readable = true ∧ mode'.writable = true ∧
      files.openForWriting (pathOf (directory ++ [name])) =
        .ok (directory ++ [name], files.put (directory ++ [name]) (.file mode' [])) := by
  have hfind := plain.find_create proper short inside
  unfold Files.openForWriting
  rw [hfind]
  cases hnode : files.node? (directory ++ [name]) with
  | none =>
    obtain ⟨-, hwritable, hsearchable⟩ := plain.granted _ _ inside
    have hmay : (Caller.owner.mayWrite mode && Caller.owner.maySearch mode) = true := by
      simp [Caller.mayWrite, Caller.maySearch, hwritable, hsearchable]
    have hcreate : files.createFile directory name =
        .ok (directory ++ [name], files.put (directory ++ [name]) (.file .newFile [])) := by
      unfold createFile
      rw [inside]
      exact if_pos hmay
    exact ⟨.newFile, by decide, by decide, hcreate⟩
  | some node =>
    cases node with
    | directory mode' => exact absurd hnode (nowhere mode')
    | file mode' bytes =>
      obtain ⟨hreadable, hwritable⟩ := plain.granted _ _ hnode
      have hmay : Caller.owner.mayWrite mode' = true := by simp [Caller.mayWrite, hwritable]
      have htruncate : files.truncate (directory ++ [name]) =
          .ok (files.put (directory ++ [name]) (.file mode' [])) := by
        unfold truncate
        rw [hnode]
        simp only [hmay, if_true, fill_file [] hnode]
      refine ⟨mode', hreadable, hwritable, ?_⟩
      show (files.truncate (directory ++ [name]) >>= fun opened => _) = _
      rw [htruncate]
      rfl
    | link target | device device => exact absurd (plain.granted _ _ hnode) id

/-- A tree is another one with a file put at a location. -/
structure Filed (files other : Files) (location : Location) (mode : Mode) (bytes : Bytes) :
    Prop where
  node? : ∀ place, other.node? place =
    if place = location then some (.file mode bytes) else files.node? place
  sizeLimit : other.sizeLimit = files.sizeLimit

/-- A write puts a file with its bytes in place, and changes nothing else. -/
theorem Plain.write (plain : files.Plain) (proper : Proper (directory ++ [name]))
    (short : (pathOf (directory ++ [name])).text.utf8ByteSize < Route.pathLimit)
    (inside : files.node? directory = some (.directory mode))
    (nowhere : ∀ mode', files.node? (directory ++ [name]) ≠ some (.directory mode'))
    (bytes : Bytes) :
    ∃ mode', mode'.readable = true ∧ mode'.writable = true ∧
      (files.write (pathOf (directory ++ [name])) bytes).answer = .ok () ∧
      files.Filed (files.write (pathOf (directory ++ [name])) bytes).state (directory ++ [name])
        mode' bytes := by
  obtain ⟨mode', hreadable, hwritable, hopens⟩ :=
    plain.openForWriting proper short inside nowhere
  have hopened : (files.put (directory ++ [name]) (.file mode' [])).node? (directory ++ [name]) =
      some (.file mode' []) := by rw [node?_put, if_pos rfl]
  have hunlimited : ∀ limit, (files.put (directory ++ [name]) (.file mode' [])).sizeLimit =
      some limit → bytes.length ≤ limit := by
    intro limit hlimit
    cases plain.unlimited.symm.trans hlimit
  have hanswer : (files.write (pathOf (directory ++ [name])) bytes).answer = .ok () := by
    rw [write_of_open bytes hopens]
    exact handOver_fits hopened hunlimited
  refine ⟨mode', hreadable, hwritable, hanswer, ?_⟩
  rw [write_of_open bytes hopens] at hanswer ⊢
  rw [handOver_ok hanswer, fill_file bytes hopened]
  refine ⟨fun place => ?_, rfl⟩
  rw [node?_put, node?_put]
  split <;> rfl

variable {other : Files} {mode' : Mode} {bytes : Bytes}

/-- With a file put into a directory, the tree is still plain. -/
theorem Filed.plain (filed : files.Filed other (directory ++ [name]) mode' bytes)
    (plain : files.Plain) (proper : Proper (directory ++ [name]))
    (inside : files.node? directory = some (.directory mode))
    (nowhere : ∀ mode, files.node? (directory ++ [name]) ≠ some (.directory mode))
    (granted : mode'.readable = true ∧ mode'.writable = true) : other.Plain where
  root := by
    obtain ⟨root, hroot⟩ := plain.root
    refine ⟨root, ?_⟩
    rw [filed.node?, if_neg (by simp)]
    exact hroot
  above place last node hnode := by
    -- What was a directory is none of the new file.
    have hkept : ∀ place mode, files.node? place = some (.directory mode) →
        other.node? place = some (.directory mode) := by
      intro place mode hplace
      have hother : place ≠ directory ++ [name] := by
        rintro rfl
        exact nowhere mode hplace
      rw [filed.node?, if_neg hother]
      exact hplace
    rw [filed.node?] at hnode
    split at hnode
    · rename_i hsame
      obtain ⟨rfl, -⟩ := List.append_inj' hsame rfl
      exact ⟨mode, hkept _ _ inside⟩
    · obtain ⟨above, habove⟩ := plain.above place last node hnode
      exact ⟨above, hkept _ _ habove⟩
  proper place node hnode := by
    rw [filed.node?] at hnode
    split at hnode
    · rename_i hsame
      rw [hsame]
      exact proper
    · exact plain.proper place node hnode
  granted place node hnode := by
    rw [filed.node?] at hnode
    split at hnode
    · cases hnode
      exact granted
    · exact plain.granted place node hnode
  unlimited := filed.sizeLimit.trans plain.unlimited

/-- In the mirror, the file appears at the path of its location. -/
theorem Filed.content?_mirror (filed : files.Filed other location mode' bytes)
    (plain : files.Plain) (after : other.Plain) (proper : Proper location) :
    other.mirror.content? = View.put files.mirror.content? (pathOf location) bytes := by
  funext path
  by_cases hpath : path = pathOf location
  · rw [hpath, after.content?_pathOf proper, filed.node?, if_pos rfl, View.put_self]
    rfl
  · rw [View.put_of_ne hpath]
    have helsewhere : ∀ place, path = pathOf place → other.node? place = files.node? place := by
      rintro place rfl
      have hplace : place ≠ location := fun hsame => hpath (congrArg pathOf hsame)
      rw [filed.node?, if_neg hplace]
    refine Option.ext fun content => ?_
    rw [after.content?_mirror, plain.content?_mirror]
    constructor
    · rintro ⟨place, node, hnode, hcontent, hplace⟩
      exact ⟨place, node, (helsewhere place hplace).symm.trans hnode, hcontent, hplace⟩
    · rintro ⟨place, node, hnode, hcontent, hplace⟩
      exact ⟨place, node, (helsewhere place hplace).trans hnode, hcontent, hplace⟩

end

end Files

end SgxActivation.Filesystem
