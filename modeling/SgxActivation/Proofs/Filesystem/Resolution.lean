import SgxActivation.Filesystem.Calls
import SgxActivation.Proofs.Filesystem.Lookup
import SgxActivation.Proofs.Filesystem.Route

/-!
# Where paths lead

Lookups of whole paths, absolute or not, and what the calls that go by a path find out
about it.

* `find_iff`, `locate_iff` — a path is refused, or its parts are followed from where it
  **starts**;
* `locate_of_create` — where a file is created or emptied, the path leads from then on;
* `settled_of_locate` — in a **rooted** tree, a path leads to a node that is no link;
* `unlink_ok` — a removal takes away the entry that the path names: the node that it leads
  to, or a link at its end.
-/

namespace SgxActivation.Filesystem.Files

variable {files other : Files} {caller : Caller} {purpose : Purpose} {path : Path}

/-- Where a path starts. -/
def start (files : Files) (route : Route) : Location :=
  if route.absolute then [] else files.workingDirectory

theorem find_iff {found : Found} :
    files.find caller purpose path = .ok found ↔ ∃ route, Route.ofPath path = .ok route ∧
      files.walk caller purpose linkLimit (files.start route) route.parts = .ok found := by
  constructor
  · exact bind_ok
  · rintro ⟨route, hroute, hwalk⟩
    unfold find
    rw [hroute]
    exact hwalk

theorem locate_eq_ok {last : Location} :
    files.locate caller path = .ok last ↔
      files.find caller .inspect path = .ok (.node last) := by
  unfold locate
  constructor
  · intro hlast
    obtain ⟨found, hfound, h⟩ := bind_ok hlast
    cases found with
    | node location =>
      cases h
      exact hfound
    | vacancy directory name => cases h
  · intro hlast
    rw [hlast]
    rfl

/-- A path leads to the node that its parts lead to. -/
theorem locate_iff {last : Location} :
    files.locate caller path = .ok last ↔ ∃ route cost, Route.ofPath path = .ok route ∧
      cost ≤ linkLimit ∧ files.Leads caller cost (files.start route) route.parts last := by
  rw [locate_eq_ok, find_iff]
  constructor
  · rintro ⟨route, hroute, hwalk⟩
    obtain ⟨cost, hcost, hleads⟩ := along_of_walk (by simp) hwalk
    exact ⟨route, cost, hroute, hcost, hleads⟩
  · rintro ⟨route, cost, hroute, hcost, hleads⟩
    exact ⟨route, hroute, inspect_of_leads hleads hcost⟩

/-- A path that leads to a node still does when files have got other bytes. -/
theorem locate_carried (carries : other.Carries files)
    (same : other.workingDirectory = files.workingDirectory) {last : Location}
    (h : files.locate caller path = .ok last) : other.locate caller path = .ok last := by
  obtain ⟨route, cost, hroute, hcost, hleads⟩ := locate_iff.1 h
  refine locate_iff.2 ⟨route, cost, hroute, hcost, ?_⟩
  unfold start
  rw [same]
  exact carries.passes hleads

/-- What is found to be written to is what the path leads to. -/
theorem locate_of_create {last : Location}
    (h : files.find caller .create path = .ok (.node last)) :
    files.locate caller path = .ok last := by
  obtain ⟨route, hroute, hwalk⟩ := find_iff.1 h
  obtain ⟨cost, hcost, hleads⟩ := along_of_walk (by simp) hwalk
  exact locate_iff.2 ⟨route, cost, hroute, hcost, hleads⟩

/-- In a vacancy there is nothing. -/
theorem nothing_of_vacancy {directory : Location} {name : String}
    (h : files.find caller .create path = .ok (.vacancy directory name)) :
    files.node? (directory ++ [name]) = none := by
  obtain ⟨route, hroute, hwalk⟩ := find_iff.1 h
  obtain ⟨cost, hcost, hdangles⟩ := along_of_walk (by simp) hwalk
  exact hdangles.nothing

/-- A vacancy is in a directory. -/
theorem directory_of_vacancy {directory : Location} {name : String}
    (h : files.find caller .create path = .ok (.vacancy directory name)) :
    ∃ mode, files.node? directory = some (.directory mode) := by
  obtain ⟨route, hroute, hwalk⟩ := find_iff.1 h
  obtain ⟨cost, hcost, hdangles⟩ := along_of_walk (by simp) hwalk
  obtain ⟨mode, hmode, -⟩ := hdangles.searchable
  exact ⟨mode, hmode⟩

/-- What is created in a vacancy is what the path leads to. -/
theorem locate_of_vacancy {directory : Location} {name : String} {node : Node}
    (h : files.find caller .create path = .ok (.vacancy directory name))
    (carries : other.Carries files)
    (same : other.workingDirectory = files.workingDirectory)
    (there : other.node? (directory ++ [name]) = some node)
    (hother : ∀ target, node ≠ .link target) :
    other.locate caller path = .ok (directory ++ [name]) := by
  obtain ⟨route, hroute, hwalk⟩ := find_iff.1 h
  obtain ⟨cost, hcost, hdangles⟩ := along_of_walk (by simp) hwalk
  refine locate_iff.2 ⟨route, cost, hroute, hcost, ?_⟩
  unfold start
  rw [same]
  exact hdangles.filled carries there hother

/-! ## Rooted trees -/

/-- The root is a directory, and everything else stands in one. -/
structure Rooted (files : Files) : Prop where
  root : ∃ mode, files.node? [] = some (.directory mode)
  above : ∀ location name node, files.node? (location ++ [name]) = some node →
    ∃ mode, files.node? location = some (.directory mode)

namespace Rooted

/-- Whether a tree is rooted can be told from its nodes, one by one. -/
theorem of_pairs (root : files.isDirectory [] = true)
    (pairs : ∀ pair ∈ files.nodes.pairs,
      pair.1 = [] ∨ files.isDirectory pair.1.dropLast = true) : files.Rooted := by
  have hdirectory : ∀ location, files.isDirectory location = true →
      ∃ mode, files.node? location = some (.directory mode) := by
    intro location h
    unfold isDirectory at h
    split at h
    · exact ⟨_, ‹_›⟩
    · cases h
  refine ⟨hdirectory [] root, fun location name node h => ?_⟩
  rcases pairs _ (Table.mem_of_find? h) with hempty | habove
  · simp at hempty
  · rw [List.dropLast_concat] at habove
    exact hdirectory location habove

/-- What stands above a directory is a directory, the root for itself. -/
theorem dropLast (rooted : files.Rooted) {location : Location} {mode : Mode}
    (h : files.node? location = some (.directory mode)) :
    ∃ mode, files.node? location.dropLast = some (.directory mode) := by
  rcases List.eq_nil_or_concat location with rfl | ⟨directory, name, rfl⟩
  · exact ⟨mode, h⟩
  · rw [List.concat_eq_append, List.dropLast_concat]
    exact rooted.above directory name _ (List.concat_eq_append ▸ h)

end Rooted

/-- Something other than a link is at a location. -/
def Settled (files : Files) (location : Location) : Prop :=
  ∃ node, files.node? location = some node ∧ ∀ target, node ≠ .link target

theorem settled_of_directory {location : Location} {mode : Mode}
    (h : files.node? location = some (.directory mode)) : files.Settled location :=
  ⟨_, h, by simp⟩

theorem Searchable.settled {location : Location} (h : files.Searchable caller location) :
    files.Settled location := by
  obtain ⟨mode, hmode, -⟩ := h
  exact settled_of_directory hmode

/-- Every move arrives somewhere. -/
theorem Moves.settled (rooted : files.Rooted) {cost : Nat} {first next : Cursor}
    (h : files.Moves caller cost first next) : files.Settled next.location := by
  cases h with
  | directory hnode => exact settled_of_directory hnode
  | here hsearch => exact hsearch.settled
  | above hsearch =>
    obtain ⟨mode, hmode, -⟩ := hsearch
    obtain ⟨mode', hmode'⟩ := rooted.dropLast hmode
    exact settled_of_directory hmode'
  | name hsearch hshort hnode hother => exact ⟨_, hnode, hother⟩
  | @link location name target rest hsearch hshort hnode =>
    show files.Settled (base target location)
    unfold base
    split
    · obtain ⟨mode, hmode⟩ := rooted.root
      exact settled_of_directory hmode
    · exact hsearch.settled

theorem Passes.settled (rooted : files.Rooted) {cost : Nat} {first last : Cursor}
    (h : files.Passes caller cost first last) : first = last ∨ files.Settled last.location := by
  induction h with
  | stop cursor => exact .inl rfl
  | move hmove _ ih =>
    rcases ih with rfl | hlast
    · exact .inr (hmove.settled rooted)
    · exact .inr hlast

theorem removeEntry_ok {location : Location} {left : Files}
    (h : files.removeEntry location = .ok left) : left = files.drop location := by
  obtain ⟨mode, -, h⟩ := bind_ok h
  split at h
  · split at h
    · cases h
    · cases h
      rfl
    · cases h
  · cases h

/-- A removal that succeeds takes away the entry that the path names. -/
theorem unlink_ok {left : Files} (h : files.unlink path = .ok left) :
    ∃ entry, files.find .owner .remove path = .ok (.node entry) ∧ left = files.drop entry := by
  obtain ⟨route, hroute, h⟩ := bind_ok h
  obtain ⟨found, hfound, h⟩ := bind_ok h
  split at h
  · rename_i hparts hlast hentry
    split at h
    · rename_i hwhole
      -- A path that names an entry demands no directory, and all its parts are followed.
      have hsame := List.filter_eq_self.2 (List.length_filter_eq_length_iff.1 hwhole)
      rw [hsame] at hfound
      exact ⟨_, find_iff.2 ⟨route, hroute, hfound⟩, removeEntry_ok h⟩
    · split at h <;> cases h
  · cases h
  · cases h

/-- The entry that a path names is the node that it leads to, or a link at its end. -/
theorem entry_of_remove {entry location : Location}
    (h : files.find caller .remove path = .ok (.node entry))
    (leads : files.locate caller path = .ok location) :
    entry = location ∨ ∃ target, files.node? entry = some (.link target) := by
  obtain ⟨route, hroute, hwalk⟩ := find_iff.1 h
  cases walk_ends hwalk with
  | link _ hlink => exact .inr ⟨_, hlink⟩
  | along hcost hleads =>
    have hentry : files.locate caller path = .ok entry :=
      locate_iff.2 ⟨route, _, hroute, hcost, hleads⟩
    exact .inl (Except.ok.inj (hentry.symm.trans leads))

end SgxActivation.Filesystem.Files
