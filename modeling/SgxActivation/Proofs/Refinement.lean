import SgxActivation.Proofs.HonestRuns
import SgxActivation.Proofs.Filesystem.PlainTree
import SgxActivation.Proofs.Filesystem.Runs

/-!
# Files refine the scripted store

Over a plain tree and settings whose paths are canonical, the store over files is honest and
obliging. So is the scripted store that mirrors the tree, and with that the two cannot be
told apart by operations.

* **`Settings.Canonical`** — all paths in normal form and of acceptable lengths;
* `honest_plain`, `obliging_plain` — the store over a plain tree;
* `Settings.refines_mirror` — sessions on a plain tree and on its mirror are alike, step by
  step, and leave the tree and the store in correspondence.
-/

namespace SgxActivation

variable {κ : Type}

open Exchange Filesystem

/-- The configured paths are canonical, and so short that those of the variables are too. -/
structure Settings.Canonical (settings : Settings) : Prop where
  field : ∀ field, Filesystem.Canonical (settings.config.path field)
  offer : settings.locations.offer.text.utf8ByteSize < Route.pathLimit
  request : settings.locations.request.text.utf8ByteSize < Route.pathLimit

theorem proper_offerVariable : ProperName Locations.offerVariable := by
  decide

theorem proper_requestVariable : ProperName Locations.requestVariable := by
  decide

namespace Settings.Canonical

variable {settings : Settings}

/-- The two variables lie in one directory. -/
theorem exists_directory (canonical : settings.Canonical) : ∃ directory,
    Proper (directory ++ [Locations.offerVariable]) ∧
    Proper (directory ++ [Locations.requestVariable]) ∧
    settings.locations.efivarsDir = pathOf directory ∧
    settings.locations.offer = pathOf (directory ++ [Locations.offerVariable]) ∧
    settings.locations.request = pathOf (directory ++ [Locations.requestVariable]) := by
  obtain ⟨directory, hproper, hpath, -⟩ := canonical.field .efivarsDir
  have hdirectory : settings.locations.efivarsDir = pathOf directory := hpath
  refine ⟨directory, hproper.concat proper_offerVariable,
    hproper.concat proper_requestVariable, hdirectory, ?_, ?_⟩
  · rw [pathOf_concat, ← hdirectory]
    rfl
  · rw [pathOf_concat, ← hdirectory]
    rfl

theorem paths (canonical : settings.Canonical) :
    ∀ path ∈ settings.paths, Filesystem.Canonical path := by
  obtain ⟨directory, hoffer, hrequest, -, hofferPath, hrequestPath⟩ := canonical.exists_directory
  intro path member
  simp only [Settings.paths, List.mem_cons, List.not_mem_nil, or_false] at member
  rcases member with rfl | rfl | rfl | rfl | rfl
  · exact canonical.field .efiRoot
  · exact canonical.field .efivarsDir
  · exact canonical.field .bootEfi
  · exact ⟨_, hoffer, hofferPath, canonical.offer⟩
  · exact ⟨_, hrequest, hrequestPath, canonical.request⟩

end Settings.Canonical

namespace Filesystem

variable {settings : Settings} {files : Files}

/-- What exists on a tree. -/
def Files.view (files : Files) : View := files.mirror.content?

theorem probe_plain (plain : files.Plain) {path : Path} (canonical : Canonical path) :
    (files.probe path).answer = files.view.presence path := by
  obtain ⟨location, hproper, rfl, hshort⟩ := canonical
  have hview : files.view (pathOf location) = (files.node? location).bind Node.content? :=
    plain.content?_pathOf hproper
  show Files.presence (files.locate .owner (pathOf location)) = _
  unfold View.presence
  rw [hview]
  rcases plain.locate hproper hshort with ⟨node, hnode, hlocate⟩ | ⟨hnone, hlocate⟩
  · have hcontent : node.content?.isSome = true := plain.content?_isSome hnode
    rw [hlocate, hnode]
    simp [Files.presence, hcontent]
  · rw [hnone]
    rcases hlocate with hmissing | hmissing
    · rw [hmissing]
      rfl
    · rw [hmissing]
      rfl

/-- A read of the offer delivers the front of a long enough file. -/
theorem read_plain (plain : files.Plain) (canonical : settings.Canonical) :
    Honours settings files.view (.read settings.locations.offer Record.Offer.size
      (files.read settings.locations.offer Record.Offer.size).answer) files.view := by
  obtain ⟨directory, hproper, -, -, hpath, -⟩ := canonical.exists_directory
  have hshort := canonical.offer
  rw [hpath] at hshort
  have hread := plain.read hproper hshort Record.Offer.size (by decide)
  rw [← hpath] at hread
  rcases hread with ⟨record, hfront, hanswer⟩ | ⟨hnone, detail, hanswer⟩
  · rw [hanswer]
    exact .delivered hfront
  · rw [hanswer]
    exact .undelivered detail hnone

/-- Where a request can be written, a write puts it there and leaves the tree plain. -/
theorem write_plain (plain : files.Plain) (canonical : settings.Canonical)
    (ready : files.view.Ready settings) (bytes : Bytes) :
    (files.write settings.locations.request bytes).answer = .ok () ∧
      (files.write settings.locations.request bytes).state.Plain ∧
      (files.write settings.locations.request bytes).state.view =
        files.view.put settings.locations.request bytes := by
  obtain ⟨directory, hofferProper, hproper, -, hofferPath, hpath⟩ := canonical.exists_directory
  have hshort := canonical.request
  obtain ⟨offer, hoffer⟩ := ready.offer
  have hnowhere := ready.request
  rw [hofferPath] at hoffer
  rw [hpath] at hshort hnowhere ⊢
  -- The offer lies in the directory that the request goes into.
  obtain ⟨node, hnode, -⟩ := Option.bind_eq_some_iff.1
    ((plain.content?_pathOf hofferProper).symm.trans hoffer)
  obtain ⟨mode, hinside⟩ := plain.above _ _ node hnode
  have hfree : ∀ mode', files.node? (directory ++ [Locations.requestVariable]) ≠
      some (.directory mode') := by
    intro mode' hthere
    refine hnowhere ((plain.content?_pathOf hproper).trans ?_)
    rw [hthere]
    rfl
  obtain ⟨mode', hreadable, hwritable, hanswer, hfiled⟩ :=
    plain.write hproper hshort hinside hfree bytes
  have hafter := hfiled.plain plain hproper hinside hfree ⟨hreadable, hwritable⟩
  exact ⟨hanswer, hafter, hfiled.content?_mirror plain hafter hproper⟩

/-- The store over a plain tree is honest. -/
theorem honest_plain (canonical : settings.Canonical) :
    store.Honest settings Files.Plain Files.view where
  probe := by
    intro files path plain member
    refine ⟨plain, ?_⟩
    show Honours settings files.view (.probe path (files.probe path).answer) files.view
    rw [probe_plain plain (canonical.paths path member)]
    exact .probe _ _
  read := by
    intro files plain
    have hstate : (files.read settings.locations.offer Record.Offer.size).state = files := by
      unfold Files.read
      split <;> rfl
    show Files.Plain (files.read settings.locations.offer Record.Offer.size).state ∧
      Honours settings files.view (.read settings.locations.offer Record.Offer.size
        (files.read settings.locations.offer Record.Offer.size).answer)
        (files.read settings.locations.offer Record.Offer.size).state.view
    rw [hstate]
    exact ⟨plain, read_plain plain canonical⟩
  write := by
    intro files bytes plain ready
    obtain ⟨hanswer, hafter, hview⟩ := write_plain plain canonical ready bytes
    show Files.Plain (files.write settings.locations.request bytes).state ∧
      Honours settings files.view (.write settings.locations.request bytes
        (files.write settings.locations.request bytes).answer)
        (files.write settings.locations.request bytes).state.view
    rw [hanswer, hview]
    exact ⟨hafter, .recorded _ _⟩

theorem obliging_plain (canonical : settings.Canonical) :
    store.Obliging settings Files.Plain Files.view :=
  fun bytes plain ready => (write_plain plain canonical ready bytes).1

end Filesystem

namespace Settings

/-- A plain tree and the scripted store that mirrors it cannot be told apart. On a fixed
processor, the same operations on both come to the same statuses, answers and reports, step
by step, but for the wording of an unexpected failure; and afterwards the store still holds
what the tree holds, path by path. -/
theorem refines_mirror (settings : Settings) (canonical : settings.Canonical)
    (processor : Processor κ) (fixed : processor.Fixed) (start : κ) (files : Files)
    (plain : files.Plain) (operations : List Operation) :
    let onFiles := Session.run settings ⟨processor, Filesystem.store⟩
      (Session.undisturbed Files operations) ⟨start, files⟩
    let scripted := Session.run settings ⟨processor, Scripted.store⟩
      (Session.undisturbed Scripted.Entries operations) ⟨start, files.mirror⟩
    List.Forall₂ (Option.Rel fun one other => one.outcome.Alike other.outcome)
        onFiles.1 scripted.1 ∧
      ∀ path, scripted.2.store.content? path = onFiles.2.store.mirror.content? path := by
  intro onFiles scripted
  let machine : Machine κ Scripted.Entries := ⟨processor, Scripted.store⟩
  let support := (settings.examineProcessor.run machine ⟨start, files.mirror⟩).result
  have hfixed : machine.processor.Fixed := fixed
  have hfiles : settings.Finds ⟨processor, Filesystem.store⟩ support :=
    finds_beside hfixed ⟨start, files.mirror⟩ Filesystem.store
  have hscripted : settings.Finds machine support := finds_of_fixed hfixed _
  have hsame : (⟨start, files⟩ : Machine.State κ Files).store.view =
      (⟨start, files.mirror⟩ : Machine.State κ Scripted.Entries).store.content? := rfl
  obtain ⟨houtcomes, -, -, hview⟩ := Session.alike
    ⟨honest_plain canonical, obliging_plain canonical, hfiles⟩
    ⟨Scripted.honest_unruled settings, Scripted.obliging_unruled settings, hscripted⟩
    operations plain files.unruled_mirror hsame
  exact ⟨houtcomes, fun path => congrFun hview.symm path⟩

/-- The stock platform as a tree of files. -/
def stockTree : Files where
  nodes := Table.ofList
    [([], .directory .newDirectory), (["sys"], .directory .newDirectory),
      (["sys", "firmware"], .directory .newDirectory),
      (["sys", "firmware", "efi"], .directory .newDirectory),
      (["sys", "firmware", "efi", "efivars"], .directory .newDirectory),
      (["sys", "firmware", "efi", "efivars", Locations.offerVariable],
        .file .newFile [7, 0, 0, 0, 0, 0, 0, 0, 128, 0, 0, 0])]

theorem canonical_stock : stock.Canonical where
  field field := by
    cases field with
    | efiRoot => exact ⟨["sys", "firmware", "efi"], by decide, by decide, by decide⟩
    | efivarsDir => exact ⟨["sys", "firmware", "efi", "efivars"], by decide, by decide, by decide⟩
    | bootEfi => exact ⟨["boot", "efi"], by decide, by decide, by decide⟩
  offer := by decide
  request := by decide

theorem plain_stockTree : stockTree.Plain :=
  .of_pairs (by decide) (by decide) rfl

/-- On the stock platform, files and their mirror are alike through an enable and a report,
and the request is then in both. -/
theorem refines_mirror_stock :
    let operations := [Operation.enable, .evaluate false]
    let onFiles := Session.run stock ⟨Scripted.dormant.processor, Filesystem.store⟩
      (Session.undisturbed Files operations) ⟨0, stockTree⟩
    let scripted := Session.run stock ⟨Scripted.dormant.processor, Scripted.store⟩
      (Session.undisturbed Scripted.Entries operations) ⟨0, stockTree.mirror⟩
    List.Forall₂ (Option.Rel fun one other => one.outcome.Alike other.outcome)
        onFiles.1 scripted.1 ∧
      onFiles.2.store.mirror.content? stock.locations.request =
        some (.file [7, 0, 0, 0, 128, 0, 0, 0]) := by
  intro operations onFiles scripted
  obtain ⟨halike, hview⟩ := refines_mirror stock canonical_stock Scripted.dormant.processor
    (fun _ _ _ _ => rfl) 0 stockTree plain_stockTree operations
  have hwritten : scripted.2.store.content? stock.locations.request =
      some (.file [7, 0, 0, 0, 128, 0, 0, 0]) := by decide +kernel
  exact ⟨halike, (hview stock.locations.request).symm.trans hwritten⟩

end Settings

end SgxActivation
