import SgxActivation.Filesystem.Store
import SgxActivation.Proofs.Filesystem.Resolution

/-!
# Records in files, on absolute paths

* `probe_present` — a probe finds a path exactly if the path leads somewhere;
* `probe_directory` — where a variable is found, its directory is;
* `unlink_join` — what removing a variable's name comes to;
* `write_missing` — how the write of a missing record can go (**`MissingWrite`**),
  and what a write that was interrupted leaves (**`Remnant`**);
* `write_creates` — what a write that succeeded leaves;
* `Remnant.probe_cleared` — what is found once such a remnant was cleared.
-/

namespace SgxActivation.Filesystem.Files

variable {files other : Files} {path : Path} {purpose : Purpose}

/-! ## Probes -/

/-- Absolute paths are followed from the root. -/
theorem start_of_isAbsolute (absolute : path.isAbsolute = true) {route : Route}
    (hroute : Route.ofPath path = .ok route) : files.start route = [] := by
  obtain ⟨-, -, -, rfl⟩ := Route.ofPath_ok_iff.1 hroute
  exact if_pos absolute

theorem find_ok (absolute : path.isAbsolute = true) {found : Found} :
    files.find .owner purpose path = .ok found ↔ ∃ route, Route.ofPath path = .ok route ∧
      files.walk .owner purpose linkLimit [] route.parts = .ok found := by
  rw [find_iff]
  refine exists_congr fun route => and_congr_right fun hroute => ?_
  rw [start_of_isAbsolute absolute hroute]

theorem locate_ok (absolute : path.isAbsolute = true) {last : Location} :
    files.locate .owner path = .ok last ↔ ∃ route cost, Route.ofPath path = .ok route ∧
      cost ≤ linkLimit ∧ files.Leads .owner cost [] route.parts last := by
  rw [locate_iff]
  refine exists_congr fun route => exists_congr fun cost => and_congr_right fun hroute => ?_
  rw [start_of_isAbsolute absolute hroute]

/-- A probe finds a path exactly if its parts lead somewhere. -/
theorem probe_present (absolute : path.isAbsolute = true) :
    (files.probe path).answer = .present ↔ ∃ route cost last, Route.ofPath path = .ok route ∧
      cost ≤ linkLimit ∧ files.Leads .owner cost [] route.parts last := by
  have hlocate : (files.probe path).answer = .present ↔
      ∃ last, files.locate .owner path = .ok last := by
    show presence (files.locate .owner path) = .present ↔ _
    cases hlocate : files.locate .owner path with
    | ok last => simp [presence]
    | error error => cases error <;> simp [presence]
  rw [hlocate]
  constructor
  · rintro ⟨last, hlast⟩
    obtain ⟨route, cost, hleads⟩ := (locate_ok absolute).1 hlast
    exact ⟨route, cost, last, hleads⟩
  · rintro ⟨route, cost, last, hleads⟩
    exact ⟨last, (locate_ok absolute).2 ⟨route, cost, hleads⟩⟩

/-- What a probe finds, it finds in a tree that has all nodes but broken links. -/
theorem probe_present_of_keeps (absolute : path.isAbsolute = true)
    (keeps : other.Keeps files (files.Broken .owner)) (h : (files.probe path).answer = .present) :
    (other.probe path).answer = .present := by
  obtain ⟨route, cost, last, hroute, hcost, hleads⟩ := (probe_present absolute).1 h
  exact (probe_present absolute).2 ⟨route, cost, last, hroute, hcost, hleads.transport keeps⟩

section

variable {directory : Path} {name : String}

theorem Leads.searchable {caller : Caller} {cost : Nat} {location last : Location} {name : String}
    (h : files.Leads caller cost location [.name name] last) :
    files.Searchable caller location := by
  cases h with
  | move hmove _ =>
    cases hmove with
    | name hsearch => exact hsearch
    | link hsearch => exact hsearch

/-- Where a variable is found, its directory is. -/
theorem probe_directory (plain : Route.Plain name) (absolute : directory.isAbsolute = true)
    (h : (files.probe (directory.join name)).answer = .present) :
    (files.probe directory).answer = .present := by
  obtain ⟨route, cost, last, hroute, hcost, hleads⟩ :=
    (probe_present (Route.isAbsolute_join plain absolute)).1 h
  obtain ⟨-, -, -, rfl⟩ := Route.ofPath_ok_iff.1 hroute
  rw [Route.ofText_join plain absolute] at hleads
  obtain ⟨early, late, middle, rfl, hearly, hlate⟩ := hleads.split
  obtain ⟨mode, hmode, -⟩ := hlate.searchable
  -- Its own text may end with a slash, and a directory is what stands there.
  have hdemand : files.Leads .owner early [] (Route.ofText directory.text).parts middle := by
    show files.Leads .owner early [] (Route.innerParts directory.text.toList ++
      if Route.demandsDirectory directory.text.toList then [.directory] else []) middle
    split
    · exact (hearly.append [.directory]).trans (.move (.directory hmode) (.stop _))
    · rw [List.append_nil]
      exact hearly
  exact (probe_present absolute).2 ⟨_, early, middle, Route.ofPath_of_join plain absolute hroute,
    by omega, hdemand⟩

/-! ## Removing a variable -/

theorem directory_not_mem_innerParts (text : List Char) :
    Part.directory ∉ Route.innerParts text := by
  unfold Route.innerParts
  intro member
  obtain ⟨piece, -, hpart⟩ := List.mem_map.1 member
  unfold Route.part at hpart
  split at hpart <;> cases hpart

/-- Removing a name from a directory that its path leads to. -/
theorem unlink_join (plain : Route.Plain name) (absolute : directory.isAbsolute = true)
    {route : Route} {cost : Nat} {location : Location}
    (hroute : Route.ofPath (directory.join name) = .ok route) (enough : cost ≤ linkLimit)
    (leads : files.Leads .owner cost [] (Route.innerParts directory.text.toList) location)
    (search : files.Searchable .owner location) (short : name.utf8ByteSize ≤ Route.nameLimit) :
    files.unlink (directory.join name) =
      if (files.node? (location ++ [name])).isSome then files.removeEntry (location ++ [name])
      else .error .noEntry := by
  obtain ⟨-, -, -, rfl⟩ := Route.ofPath_ok_iff.1 hroute
  let parts := Route.innerParts directory.text.toList ++ [Part.name name]
  -- Only demands are dropped from the parts, and there is none.
  have hfilter : parts.filter (fun part => part ≠ Part.directory) = parts := by
    refine List.filter_eq_self.2 fun part member => decide_eq_true ?_
    rintro rfl
    rcases List.mem_append.1 member with hinner | hname
    · exact directory_not_mem_innerParts _ hinner
    · cases List.mem_singleton.1 hname
  have hlast : parts.getLast? = some (.name name) := by simp [parts]
  have hfound : files.followRoute .owner .remove ⟨true, parts⟩ =
      .ok (if (files.node? (location ++ [name])).isSome then .node (location ++ [name])
        else .vacancy location name) := by
    show files.walk .owner .remove linkLimit [] parts = _
    rw [walk_append leads enough [.name name] (fun _ => rfl),
      walk_name search short (fun _ => .inl rfl)]
    cases files.node? (location ++ [name]) with
    | none => rfl
    | some node =>
      cases node with
      | link target => rfl
      | directory mode => rw [walk_eq]; rfl
      | file mode bytes => rw [walk_eq]; rfl
      | device device => rw [walk_eq]; rfl
  unfold unlink
  rw [hroute, Route.ofText_join plain absolute]
  simp only [bind, Except.bind]
  rw [hfilter, hfound, hlast]
  cases files.node? (location ++ [name]) with
  | none => rfl
  | some node =>
    have hsame : parts.length = parts.length := rfl
    exact if_pos hsame

/-- An entry that is no directory can be removed exactly if its directory may be
written to. -/
theorem removeEntry_eq {location : Location} {mode : Mode} {node : Node}
    (hmode : files.node? location = some (.directory mode))
    (hsearch : Caller.owner.maySearch mode = true)
    (hnode : files.node? (location ++ [name]) = some node)
    (hother : ∀ mode, node ≠ .directory mode) :
    files.removeEntry (location ++ [name]) =
      if Caller.owner.mayWrite mode then .ok (files.drop (location ++ [name]))
      else .error .accessDenied := by
  unfold removeEntry
  rw [List.dropLast_concat, requireDirectory_ok.2 hmode, hnode]
  show (if (Caller.owner.mayWrite mode && Caller.owner.maySearch mode) = true then _ else _) = _
  rw [hsearch, Bool.and_true]
  split
  · cases node with
    | directory mode' => exact absurd rfl (hother mode')
    | file mode' bytes => rfl
    | link target => rfl
    | device device => rfl
  · rfl

end

/-! ## Reading -/

/-- What is read of a file is the front of its bytes, if there are enough of them. -/
theorem recordAt_file {location : Location} {mode : Mode} {bytes : Bytes} (length : Nat)
    (file : files.node? location = some (.file mode bytes)) :
    files.recordAt path location length =
      if length ≤ bytes.length then .ok (bytes.take length)
      else .error ⟨.unexpected, s!"{path.text}: record is shorter than {length} bytes"⟩ := by
  have hfront : files.readFront location length = .ok (bytes.take length) := by
    unfold readFront
    rw [file]
    split
    · rename_i hzero
      rw [hzero, List.take_zero]
    · rfl
  have hlength : (bytes.take length).length = length ↔ length ≤ bytes.length := by
    rw [List.length_take]
    omega
  unfold recordAt
  rw [hfront]
  simp only [hlength]

theorem recordAt_directory {location : Location} {mode : Mode} {length : Nat}
    (directory : files.node? location = some (.directory mode)) (filled : length ≠ 0) :
    files.recordAt path location length =
      .error (failureAt .unexpected path .isDirectory) := by
  unfold recordAt readFront
  rw [directory, if_neg filled]

/-! ## Writing a missing record -/

/-- What a write that was interrupted leaves of a missing record: a file with some
bytes, in a directory that may be written to, where the path had dangled. -/
structure Remnant (files left : Files) (path : Path) (directory : Location) (missing : String) :
    Prop where
  dangles : ∃ route cost, Route.ofPath path = .ok route ∧ cost ≤ linkLimit ∧
    files.Dangles .owner cost [] route.parts directory missing
  writable : ∃ mode, files.node? directory = some (.directory mode) ∧
    Caller.owner.mayWrite mode = true
  node? : ∃ bytes, ∀ location, left.node? location =
    if location = directory ++ [missing] then some (.file .newFile bytes) else files.node? location

/-- A file is created in a directory that may be written to. -/
theorem createFile_ok {directory location : Location} {name : String} {opened : Files}
    (h : files.createFile directory name = .ok (location, opened)) :
    location = directory ++ [name] ∧ opened = files.put location (.file .newFile []) ∧
      ∃ mode, files.node? directory = some (.directory mode) ∧
        Caller.owner.mayWrite mode = true := by
  unfold createFile at h
  split at h
  · rename_i mode hmode
    split at h
    · rename_i hmay
      cases h
      exact ⟨rfl, rfl, mode, hmode, (Bool.and_eq_true_iff.1 hmay).1⟩
    · cases h
  · cases h

/-- Opening a missing record creates it where its path dangles. -/
theorem openForWriting_missing (absolute : path.isAbsolute = true)
    (missing : (files.probe path).answer ≠ .present) {location : Location} {opened : Files}
    (h : files.openForWriting path = .ok (location, opened)) :
    ∃ directory name, location = directory ++ [name] ∧
      opened = files.put location (.file .newFile []) ∧
      files.Remnant opened path directory name := by
  obtain ⟨found, hfound, h⟩ := bind_ok h
  obtain ⟨route, hroute, hwalk⟩ := (find_ok absolute).1 hfound
  obtain ⟨cost, hcost, halong⟩ := along_of_walk (by simp) hwalk
  cases found with
  | node last =>
    exact absurd ((probe_present absolute).2 ⟨route, cost, last, hroute, hcost, halong⟩) missing
  | vacancy directory name =>
    obtain ⟨rfl, rfl, hwritable⟩ := createFile_ok h
    exact ⟨directory, name, rfl, rfl, ⟨route, cost, hroute, hcost, halong⟩, hwritable, [],
      fun other => node?_put ..⟩

section

variable {opened : Files} {location : Location} {bytes : Bytes}

theorem fill_file {mode : Mode} {content : Bytes} (bytes : Bytes)
    (file : opened.node? location = some (.file mode content)) :
    opened.fill location bytes = opened.put location (.file mode bytes) := by
  unfold fill
  rw [file]

/-- A record that is no larger than files may be goes into an open file. -/
theorem handOver_fits {mode : Mode} {content : Bytes}
    (file : opened.node? location = some (.file mode content))
    (fits : ∀ limit, opened.sizeLimit = some limit → bytes.length ≤ limit) :
    (opened.handOver path location bytes (delivery bytes.length opened location)).answer =
      .ok () := by
  have hwritten : opened.writeOnce location bytes.length = .ok bytes.length := by
    unfold writeOnce
    rw [file]
    cases hlimit : opened.sizeLimit with
    | none => rfl
    | some limit =>
      have hroom := fits limit hlimit
      have hguard : ¬ ((limit = 0 && bytes.length ≠ 0) = true) := by
        rw [Bool.and_eq_true, decide_eq_true_iff, decide_eq_true_iff]
        omega
      simp only [if_neg hguard, Nat.min_eq_right hroom]
  have hsynced : opened.sync location = .ok () := by
    unfold sync
    rw [file]
  simp [handOver, delivery, hwritten, hsynced, settle]

/-- A larger one is discarded. -/
theorem handOver_cramped (path : Path) {limit : Nat}
    (file : opened.node? location = some (.file .newFile []))
    (hlimit : opened.sizeLimit = some limit) (cramped : limit < bytes.length) :
    ∃ (left : Files) (failure : Failure),
      opened.handOver path location bytes (delivery bytes.length opened location) =
        left.discard path failure ∧
      ∃ kept, ∀ other, left.node? other =
        if other = location then some (.file .newFile kept) else opened.node? other := by
  -- Nothing fits, and the write is refused; or some bytes do, and it stops short.
  by_cases hnone : limit = 0
  · have hwritten : opened.writeOnce location bytes.length = .error .fileTooLarge := by
      have hguard : (limit = 0 && bytes.length ≠ 0) = true := by
        rw [Bool.and_eq_true, decide_eq_true_iff, decide_eq_true_iff]
        omega
      unfold writeOnce
      rw [file, hlimit]
      exact if_pos hguard
    refine ⟨opened, failureAt .unexpected path .fileTooLarge, ?_, [], fun other => ?_⟩
    · simp only [handOver, delivery, hwritten]
    split
    · rename_i hsame
      rw [hsame, file]
    · rfl
  · have hwritten : opened.writeOnce location bytes.length = .ok limit := by
      have hguard : ¬ ((limit = 0 && bytes.length ≠ 0) = true) := by
        rw [Bool.and_eq_true, decide_eq_true_iff]
        exact fun h => hnone h.1
      unfold writeOnce
      rw [file, hlimit]
      simp only [if_neg hguard, Nat.min_eq_left (Nat.le_of_lt cramped)]
    have hshort : limit ≠ bytes.length := by omega
    refine ⟨opened.fill location (bytes.take limit),
      ⟨.unexpected, s!"{path.text}: wrote {limit} of {bytes.length} bytes"⟩, ?_,
      bytes.take limit, fun other => ?_⟩
    · simp only [handOver, delivery, hwritten, if_neg hshort]
    · rw [fill_file _ file, node?_put]

end

/-- What is left once a broken write was cleaned up after. -/
def cleared (left : Files) (path : Path) : Files :=
  match left.unlink path with
  | .ok files => files
  | .error _ => left

theorem discard_eq (left : Files) (path : Path) (failure : Failure) :
    (left.discard path failure).answer = .error failure ∧
      (left.discard path failure).state = left.cleared path := by
  unfold discard cleared
  cases left.unlink path <;> exact ⟨rfl, rfl⟩

theorem write_of_shut {error : SystemError} (bytes : Bytes)
    (h : files.openForWriting path = .error error) :
    files.write path bytes = ⟨.error (openFailure path error), [.openFailed path error], files⟩ := by
  simp only [write, writeRecord, h]

theorem write_of_open {location : Location} {opened : Files} (bytes : Bytes)
    (h : files.openForWriting path = .ok (location, opened)) :
    files.write path bytes =
      opened.handOver path location bytes (delivery bytes.length opened location) := by
  simp only [write, writeRecord, h]

/-- How the write of a missing record goes: the file cannot be opened and nothing
changes; or files may not get as large and the remnant is cleared; or all is well. -/
inductive MissingWrite (files : Files) (path : Path) (bytes : Bytes) : Prop
  | shut {failure : Failure} (closed : ∀ opened, files.openForWriting path ≠ .ok opened)
      (answer : (files.write path bytes).answer = .error failure)
      (state : (files.write path bytes).state = files)
  | interrupted {opened : Location × Files} {limit : Nat} {left : Files} {directory : Location}
      {name : String} {failure : Failure} (opens : files.openForWriting path = .ok opened)
      (limited : files.sizeLimit = some limit) (cramped : limit < bytes.length)
      (remnant : files.Remnant left path directory name)
      (answer : (files.write path bytes).answer = .error failure)
      (state : (files.write path bytes).state = left.cleared path)
  | written (fits : ∀ limit, files.sizeLimit = some limit → bytes.length ≤ limit)
      (answer : (files.write path bytes).answer = .ok ())

theorem write_missing (absolute : path.isAbsolute = true) (bytes : Bytes)
    (missing : (files.probe path).answer ≠ .present) : files.MissingWrite path bytes := by
  cases hopens : files.openForWriting path with
  | error error =>
    have hwrite := write_of_shut bytes hopens
    refine .shut (fun opened h => ?_) (congrArg Reply.answer hwrite) (congrArg Reply.state hwrite)
    rw [hopens] at h
    cases h
  | ok result =>
    obtain ⟨location, opened⟩ := result
    obtain ⟨directory, name, rfl, rfl, hremnant⟩ := openForWriting_missing absolute missing hopens
    let opened := files.put (directory ++ [name]) (.file .newFile [])
    have hwrite : files.write path bytes = opened.handOver path (directory ++ [name]) bytes
        (delivery bytes.length opened (directory ++ [name])) := write_of_open bytes hopens
    have hfile : opened.node? (directory ++ [name]) = some (.file .newFile []) := by
      rw [node?_put, if_pos rfl]
    by_cases hfits : ∀ limit, files.sizeLimit = some limit → bytes.length ≤ limit
    · refine .written hfits ?_
      rw [hwrite]
      exact handOver_fits hfile hfits
    · obtain ⟨limit, hlimit, hcramped⟩ :
          ∃ limit, files.sizeLimit = some limit ∧ limit < bytes.length := by
        cases hlimit : files.sizeLimit with
        | none => exact absurd (fun limit h => by rw [hlimit] at h; cases h) hfits
        | some limit =>
          refine ⟨limit, rfl, Nat.lt_of_not_le fun hroom => hfits fun other h => ?_⟩
          rw [hlimit] at h
          cases h
          exact hroom
      obtain ⟨left, failure, hdiscard, kept, hnode⟩ := handOver_cramped path hfile hlimit hcramped
      have hleft : files.Remnant left path directory name := by
        refine ⟨hremnant.dangles, hremnant.writable, kept, fun other => ?_⟩
        rw [hnode, node?_put]
        split <;> rfl
      obtain ⟨hanswer, hstate⟩ := discard_eq left path failure
      rw [← hdiscard, ← hwrite] at hanswer hstate
      exact .interrupted hopens hlimit hcramped hleft hanswer hstate

/-! ## A record that was written -/

theorem settle_state (files : Files) (path : Path) (bytes : Bytes) (delivery : Delivery) :
    (files.settle path bytes delivery).state = files := by
  unfold settle
  split <;> rfl

/-- A record is only said to be written once all of its bytes are in the open node. -/
theorem handOver_ok {opened : Files} {location : Location} {bytes : Bytes} {delivery : Delivery}
    (h : (opened.handOver path location bytes delivery).answer = .ok ()) :
    (opened.handOver path location bytes delivery).state = opened.fill location bytes := by
  unfold handOver at h ⊢
  cases hwritten : delivery.written with
  | error error =>
    rw [hwritten] at h
    cases (discard_eq opened path _).1.symm.trans h
  | ok count =>
    rw [hwritten] at h
    by_cases hwhole : count = bytes.length
    · subst hwhole
      simp only [↓reduceIte, List.take_length, settle_state]
    · simp only [if_neg hwhole] at h
      cases (discard_eq (opened.fill location (bytes.take count)) path _).1.symm.trans h

/-- Writing a missing record puts a file with its bytes where the path had dangled, and
nothing anywhere else. -/
theorem write_creates (absolute : path.isAbsolute = true) {bytes : Bytes}
    (missing : (files.probe path).answer ≠ .present)
    (h : (files.write path bytes).answer = .ok ()) :
    ∃ directory name, (∃ route cost, Route.ofPath path = .ok route ∧ cost ≤ linkLimit ∧
        files.Dangles .owner cost [] route.parts directory name) ∧
      ∀ location, (files.write path bytes).state.node? location =
        if location = directory ++ [name] then some (.file .newFile bytes)
        else files.node? location := by
  cases hopens : files.openForWriting path with
  | error error =>
    rw [write_of_shut bytes hopens] at h
    cases h
  | ok result =>
    obtain ⟨location, opened⟩ := result
    obtain ⟨directory, name, rfl, rfl, hremnant⟩ := openForWriting_missing absolute missing hopens
    rw [write_of_open bytes hopens] at h ⊢
    refine ⟨directory, name, hremnant.dangles, fun location => ?_⟩
    rw [handOver_ok h, fill_file bytes (by rw [node?_put, if_pos rfl]), node?_put, node?_put]
    split <;> rfl

/-! ## Clearing a remnant -/

section

variable {directory : Path} {name : String}

/-- A variable whose name is missing where its path leads is not found. -/
theorem probe_absent_join (plain : Route.Plain name) (absolute : directory.isAbsolute = true)
    {route : Route} {cost : Nat} {location : Location}
    (hroute : Route.ofPath (directory.join name) = .ok route) (enough : cost ≤ linkLimit)
    (leads : files.Leads .owner cost [] (Route.innerParts directory.text.toList) location)
    (search : files.Searchable .owner location) (short : name.utf8ByteSize ≤ Route.nameLimit)
    (nothing : files.node? (location ++ [name]) = none) :
    (files.probe (directory.join name)).answer = .absent := by
  have hfind : files.find .owner .inspect (directory.join name) = .ok (.vacancy location name) := by
    refine (find_ok (Route.isAbsolute_join plain absolute)).2 ⟨route, hroute, ?_⟩
    obtain ⟨-, -, -, rfl⟩ := Route.ofPath_ok_iff.1 hroute
    rw [Route.ofText_join plain absolute]
    show files.walk .owner .inspect linkLimit []
      (Route.innerParts directory.text.toList ++ [.name name]) = _
    rw [walk_append leads enough [.name name] (fun _ => rfl),
      walk_name search short (fun _ => .inl rfl), nothing]
    rfl
  have hlocate : files.locate .owner (directory.join name) = .error .noEntry := by
    unfold locate
    rw [hfind]
    rfl
  show presence (files.locate .owner (directory.join name)) = .absent
  rw [hlocate]
  rfl

/-- A last name dangles because it is missing, or because it is a broken link. -/
theorem Dangles.of_name {caller : Caller} {cost : Nat} {location last : Location}
    {missing : String} (h : files.Dangles caller cost location [.name name] last missing) :
    files.Searchable caller location ∧ name.utf8ByteSize ≤ Route.nameLimit ∧
      ((last = location ∧ missing = name) ∨ ∃ target,
        files.node? (location ++ [name]) = some (.link target) ∧
        files.Broken caller location target) := by
  cases h.passes with
  | stop => exact ⟨h.searchable, h.short, .inl ⟨rfl, rfl⟩⟩
  | @move _ _ _ total _ hmove hrest =>
    cases hmove with
    | name _ _ _ _ =>
      cases hrest with
      | move hmove' _ => cases hmove'
    | @link _ _ target _ hsearch hshort hnode =>
      rw [List.append_nil] at hrest
      refine ⟨hsearch, hshort, .inr ⟨target, hnode, total, last, missing, ?_⟩⟩
      exact ⟨hrest, h.searchable, h.short, h.nothing⟩

variable {left : Files} {last : Location} {missing : String}

theorem Remnant.nothing (h : files.Remnant left path last missing) :
    files.node? (last ++ [missing]) = none := by
  obtain ⟨route, cost, -, -, hdangles⟩ := h.dangles
  exact hdangles.nothing

theorem Remnant.node?_eq (h : files.Remnant left path last missing) {location : Location}
    {node : Node} (hnode : files.node? location = some node) : left.node? location = some node := by
  obtain ⟨bytes, hleft⟩ := h.node?
  have hother : location ≠ last ++ [missing] := by
    rintro rfl
    cases h.nothing.symm.trans hnode
  rw [hleft, if_neg hother]
  exact hnode

/-- The remnant leads where the missing record's path had dangled. -/
theorem Remnant.probe_present (h : files.Remnant left path last missing)
    (absolute : path.isAbsolute = true) : (left.probe path).answer = .present := by
  obtain ⟨route, cost, hroute, hcost, hdangles⟩ := h.dangles
  obtain ⟨bytes, hleft⟩ := h.node?
  have hcarries : left.Carries files := fun _ _ hnode => .inl (h.node?_eq hnode)
  have hthere : left.node? (last ++ [missing]) = some (.file .newFile bytes) := by
    rw [hleft, if_pos rfl]
  exact (Files.probe_present absolute).2
    ⟨route, cost, _, hroute, hcost, hdangles.filled hcarries hthere (by simp)⟩

theorem Remnant.keeps (h : files.Remnant left path last missing) :
    left.Keeps files (files.Broken .owner) :=
  fun _ _ hnode => .inl (h.node?_eq hnode)

/-- Without a name that dangled before, all other nodes are still there. -/
theorem Remnant.keeps_drop (h : files.Remnant left path last missing) {location : Location}
    (hname : files.node? (location ++ [name]) = none ∨ ∃ target,
      files.node? (location ++ [name]) = some (.link target) ∧
      files.Broken .owner location target) :
    (left.drop (location ++ [name])).Keeps files (files.Broken .owner) := by
  intro place node hnode
  by_cases hsame : place = location ++ [name]
  · subst hsame
    rcases hname with hnone | ⟨target, hlink, hbroken⟩
    · cases hnone.symm.trans hnode
    · rw [List.dropLast_concat]
      exact .inr ⟨target, Option.some.inj (hnode.symm.trans hlink), hbroken⟩
  · rw [node?_drop, if_neg hsame]
    exact .inl (h.node?_eq hnode)

/-- Clearing a remnant takes the variable's name away. Only a broken link in a directory
that may not be written to stays, and with it the remnant that it now leads to. -/
theorem Remnant.probe_cleared (plain : Route.Plain name) (absolute : directory.isAbsolute = true)
    (h : files.Remnant left (directory.join name) last missing) :
    (left.cleared (directory.join name)).Keeps files (files.Broken .owner) ∧
      ((files.unlink (directory.join name) ≠ .error .accessDenied ∧
        ((left.cleared (directory.join name)).probe (directory.join name)).answer = .absent) ∨
      (files.unlink (directory.join name) = .error .accessDenied ∧
        ((left.cleared (directory.join name)).probe (directory.join name)).answer = .present)) := by
  obtain ⟨route, cost, hroute, hcost, hdangles⟩ := h.dangles
  have hjoin := hroute
  obtain ⟨-, -, -, rfl⟩ := Route.ofPath_ok_iff.1 hroute
  rw [Route.ofText_join plain absolute] at hdangles
  obtain ⟨early, late, location, rfl, hleads, hlast⟩ := hdangles.split
  have henough : early ≤ linkLimit := by omega
  obtain ⟨hsearch, hshort, hname⟩ := hlast.of_name
  have hunlink := unlink_join plain absolute hjoin henough hleads hsearch hshort
  have hunlink' := unlink_join plain absolute hjoin henough (hleads.transport h.keeps)
    (h.keeps.searchable hsearch) hshort
  obtain ⟨mode, hmode, hmaySearch⟩ := hsearch
  -- With the name gone, the record is missing again.
  have hgone (hdead : files.node? (location ++ [name]) = none ∨ ∃ target,
      files.node? (location ++ [name]) = some (.link target) ∧ files.Broken .owner location target)
      (hdropped : left.unlink (directory.join name) = .ok (left.drop (location ++ [name]))) :
      (left.cleared (directory.join name)).Keeps files (files.Broken .owner) ∧
        ((left.cleared (directory.join name)).probe (directory.join name)).answer = .absent := by
    have hkeeps := h.keeps_drop hdead
    have hcleared : left.cleared (directory.join name) = left.drop (location ++ [name]) := by
      unfold cleared
      rw [hdropped]
    rw [hcleared]
    refine ⟨hkeeps, probe_absent_join plain absolute hjoin henough (hleads.transport hkeeps)
      (hkeeps.searchable ⟨mode, hmode, hmaySearch⟩) hshort ?_⟩
    rw [node?_drop, if_pos rfl]
  rcases hname with ⟨rfl, rfl⟩ | ⟨target, hlink, hbroken⟩
  · -- The name itself was missing, and its directory lets it be created and removed.
    obtain ⟨bytes, hleft⟩ := h.node?
    obtain ⟨mode', hmode', hwritable⟩ := h.writable
    cases Option.some.inj (hmode.symm.trans hmode')
    have hthere : left.node? (last ++ [missing]) = some (.file .newFile bytes) := by
      rw [hleft, if_pos rfl]
    rw [h.nothing] at hunlink
    rw [hthere] at hunlink'
    have hremoved := removeEntry_eq (h.node?_eq hmode) hmaySearch hthere (by simp)
    rw [if_pos hwritable] at hremoved
    obtain ⟨hkeeps, habsent⟩ := hgone (.inl h.nothing) (hunlink'.trans hremoved)
    exact ⟨hkeeps, .inl ⟨by simp [hunlink], habsent⟩⟩
  · -- The name was a broken link, which is all that is removed.
    have hthere := h.node?_eq hlink
    have hremoved := removeEntry_eq hmode hmaySearch hlink (by simp)
    have hremoved' := removeEntry_eq (h.node?_eq hmode) hmaySearch hthere (by simp)
    rw [hlink] at hunlink
    rw [hthere] at hunlink'
    by_cases hwritable : Caller.owner.mayWrite mode = true
    · rw [if_pos hwritable] at hremoved hremoved'
      obtain ⟨hkeeps, habsent⟩ := hgone (.inr ⟨target, hlink, hbroken⟩) (hunlink'.trans hremoved')
      refine ⟨hkeeps, .inl ⟨?_, habsent⟩⟩
      rw [hunlink]
      simp [hremoved]
    · rw [if_neg hwritable] at hremoved hremoved'
      have hcleared : left.cleared (directory.join name) = left := by
        unfold cleared
        rw [hunlink'.trans hremoved']
      rw [hcleared]
      exact ⟨h.keeps, .inr ⟨hunlink.trans hremoved,
        h.probe_present (Route.isAbsolute_join plain absolute)⟩⟩

end

end SgxActivation.Filesystem.Files
