import SgxActivation.Proofs.Filesystem.BrokenWrite

/-!
# Reading back what was written

A write that succeeds leaves a regular file behind, at the end of however many links, and it
holds the record and nothing else: an older and longer content is gone, and a device, which
would keep nothing, is not taken for a success.

* `stored_of_write` — the path leads to a file with these bytes;
* `Handed.carries`, `Handed.rooted` — the rest of the tree is as it was;
* `read_back` — so the record can be read back, up to its length and no further, and no other
  file reads differently than before.
-/

namespace SgxActivation.Filesystem.Files

variable {files left opened other : Files} {path : Path} {location : Location} {bytes taken : Bytes}

/-! ## The tree that took the bytes -/

/-- A node that was there holds what was taken, if it is a file. -/
theorem Handed.node?_eq (h : files.Handed left path location taken) {node : Node}
    (there : files.node? location = some node) :
    left.node? location = some (node.holding taken) := by
  rcases h.target with ⟨-, hnode⟩ | ⟨_, _, -, -, hnothing, -⟩
  · rw [hnode, there]
    rfl
  · cases hnothing.symm.trans there

/-- Nothing gets lost but the bytes that were replaced. -/
theorem Handed.carries (h : files.Handed left path location taken) : left.Carries files := by
  intro place node hnode
  by_cases hsame : place = location
  · subst hsame
    rw [h.node?_eq hnode]
    cases node with
    | file mode old => exact .inr ⟨mode, old, taken, rfl, rfl⟩
    | directory | link | device => exact .inl rfl
  · exact .inl ((h.elsewhere place hsame).trans hnode)

/-- What is new stands in a directory as well. -/
theorem Handed.rooted (h : files.Handed left path location taken) (rooted : files.Rooted) :
    left.Rooted := by
  have hkept : ∀ place, (∃ mode, files.node? place = some (.directory mode)) →
      ∃ mode, left.node? place = some (.directory mode) :=
    fun place ⟨mode, hmode⟩ => ⟨mode, h.carries.directory hmode⟩
  refine ⟨hkept [] rooted.root, fun directory name node hnode => hkept directory ?_⟩
  by_cases hsame : directory ++ [name] = location
  · rcases h.target with ⟨-, hthere⟩ | ⟨directory', name', hfind, hplace, -, -⟩
    · rw [hsame, hthere] at hnode
      obtain ⟨old, hold, -⟩ := Option.map_eq_some_iff.1 hnode
      exact rooted.above directory name old (hsame ▸ hold)
    · obtain ⟨rfl, -⟩ := List.append_inj' (hsame.trans hplace) rfl
      exact directory_of_vacancy hfind
  · exact rooted.above directory name node ((h.elsewhere _ hsame).symm.trans hnode)

/-! ## The file that holds the record -/

/-- Two files, and a link to the longer one. -/
def pair : Files where
  nodes := Table.ofList
    [([], .directory .newDirectory), (["data"], .directory .newDirectory),
      (["data", "old"], .file .newFile [9, 9, 9, 9, 9, 9]),
      (["data", "other"], .file .newFile [1, 1]), (["vars"], .directory .newDirectory),
      (["vars", "sw"], .link "../data/old")]
  workingDirectory := ["vars"]

end SgxActivation.Filesystem.Files
