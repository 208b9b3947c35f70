import SgxActivation.Filesystem.Lookup

/-!
# Lookups, part by part

A lookup moves a **cursor**: the location reached and the parts that are left. What
a move does depends on the tree alone, not on the purpose of the lookup, and costs
one link or none.

* `walk_name_ok` — what a lookup met on its way along a name;
* **`Moves`** and **`Passes`** — one move and many, with their cost in links;
* `walk_ends` — a lookup that finds something has passed all its parts (**`Leads`**), or
  stands before a last name that is missing (**`Dangles`**) or a link that is to be removed;
* `walk_append` — parts that lead somewhere can be looked up from there on;
* `Leads.transport` — another tree leads to the same place if it keeps all nodes
  but links that dangle;
* **`Carries`** — or if it has them all but for what is in its files.
-/

namespace SgxActivation.Filesystem

theorem bind_ok {ε α β : Type} {first : Except ε α} {next : α → Except ε β} {result : β}
    (h : first >>= next = .ok result) : ∃ a, first = .ok a ∧ next a = .ok result := by
  cases first with
  | error failure => cases h
  | ok a => exact ⟨a, rfl, h⟩

namespace Files

variable {files other : Files} {caller : Caller} {purpose : Purpose}

/-- The directory at a location may be searched. -/
def Searchable (files : Files) (caller : Caller) (location : Location) : Prop :=
  ∃ mode, files.node? location = some (.directory mode) ∧ caller.maySearch mode = true

/-- Where a link at a location points from. -/
def base (target : String) (location : Location) : Location :=
  if (Route.ofText target).absolute then [] else location

theorem requireDirectory_ok {location : Location} {mode : Mode} :
    files.requireDirectory location = .ok mode ↔
      files.node? location = some (.directory mode) := by
  unfold requireDirectory
  split
  · rename_i mode' hnode
    simp [hnode]
  · rename_i hnone
    simpa using fun hnode => hnone mode hnode

theorem requireSearch_ok {location : Location} :
    files.requireSearch caller location = .ok () ↔ files.Searchable caller location := by
  unfold requireSearch Searchable
  constructor
  · intro h
    obtain ⟨mode, hmode, h⟩ := bind_ok h
    refine ⟨mode, requireDirectory_ok.1 hmode, ?_⟩
    cases hsearch : caller.maySearch mode with
    | true => rfl
    | false =>
      rw [hsearch] at h
      cases h
  · rintro ⟨mode, hmode, hsearch⟩
    rw [requireDirectory_ok.2 hmode]
    simp [bind, Except.bind, hsearch, pure, Except.pure]

/-- How a lookup goes on behind a link. -/
def beyond (files : Files) (caller : Caller) (purpose : Purpose) :
    (links : Nat) → Location → List Part → Except SystemError Found
  | 0 => fun _ _ => .error .tooManyLinks
  | links + 1 => files.walk caller purpose links

theorem walk_eq (links : Nat) :
    files.walk caller purpose links =
      files.walkWith caller purpose (files.beyond caller purpose links) := by
  cases links <;> rfl

/-- A lookup that finds something along a name has met nothing there, a link, or
something else, and nothing stood in its way. -/
theorem walk_name_ok {links : Nat} {location : Location} {name : String} {rest : List Part}
    {found : Found}
    (h : files.walk caller purpose links location (.name name :: rest) = .ok found) :
    files.Searchable caller location ∧ name.utf8ByteSize ≤ Route.nameLimit ∧
      match files.node? (location ++ [name]) with
      | none => rest = [] ∧ found = .vacancy location name
      | some (.link target) =>
        (purpose = .remove ∧ rest = [] ∧ found = .node (location ++ [name])) ∨
          ∃ fewer, links = fewer + 1 ∧ files.walk caller purpose fewer (base target location)
            ((Route.ofText target).parts ++ rest) = .ok found
      | some _ => files.walk caller purpose links (location ++ [name]) rest = .ok found := by
  rw [walk_eq] at h ⊢
  simp only [walkWith] at h
  obtain ⟨_, hsearch, h⟩ := bind_ok h
  refine ⟨requireSearch_ok.1 hsearch, ?_⟩
  split at h
  · cases h
  split at h
  · cases h
  rename_i hguard hlimit
  refine ⟨by omega, ?_⟩
  cases hnode : files.node? (location ++ [name]) with
  | none =>
    rw [hnode] at h
    cases rest with
    | nil =>
      cases h
      exact ⟨rfl, rfl⟩
    | cons part parts => cases h
  | some node =>
    rw [hnode] at h
    cases node with
    | link target =>
      -- The purpose matters here: a link that is to be removed is not followed.
      by_cases hend : purpose = .remove ∧ rest = []
      · obtain ⟨rfl, rfl⟩ := hend
        cases h
        exact .inl ⟨rfl, rfl, rfl⟩
      · have hfollow : (purpose = .remove && rest.isEmpty) = false := by
          simpa using hend
        simp only [hfollow] at h
        cases links with
        | zero => cases h
        | succ fewer => exact .inr ⟨fewer, rfl, h⟩
    | directory mode => exact h
    | file mode bytes => exact h
    | device device => exact h

/-- What a lookup along a name does if nothing stands in its way. -/
theorem walk_name {links : Nat} {location : Location} {name : String} {rest : List Part}
    (search : files.Searchable caller location) (short : name.utf8ByteSize ≤ Route.nameLimit)
    (plain : purpose = .create → rest = [] ∨ onlyDemands rest = false) :
    files.walk caller purpose links location (.name name :: rest) =
      match files.node? (location ++ [name]) with
      | none => if rest.isEmpty then .ok (.vacancy location name) else .error .noEntry
      | some (.link target) =>
        if purpose = .remove && rest.isEmpty then .ok (.node (location ++ [name]))
        else files.beyond caller purpose links (base target location)
          ((Route.ofText target).parts ++ rest)
      | some _ => files.walk caller purpose links (location ++ [name]) rest := by
  have hguard : (purpose = .create && !rest.isEmpty && onlyDemands rest) = false := by
    by_cases hcreate : purpose = .create
    · rcases plain hcreate with rfl | hdemands
      · simp
      · simp [hdemands]
    · simp [hcreate]
  have hlimit : ¬ Route.nameLimit < name.utf8ByteSize := by omega
  rw [walk_eq]
  show (files.requireSearch caller location >>= fun _ => _) = _
  rw [requireSearch_ok.2 search]
  show (if (purpose = .create && !rest.isEmpty && onlyDemands rest) = true then _ else _) = _
  rw [hguard]
  show (if Route.nameLimit < name.utf8ByteSize then _ else _) = _
  rw [if_neg hlimit]
  cases files.node? (location ++ [name]) with
  | none => rfl
  | some node => cases node <;> rfl

/-! ## Where lookups go -/

/-- A location and the parts to follow from there. -/
structure Cursor where
  location : Location
  parts : List Part

/-- One move along the first part, at the cost of one link or none. -/
inductive Moves (files : Files) (caller : Caller) : (cost : Nat) → Cursor → Cursor → Prop
  | directory {location rest mode} : files.node? location = some (.directory mode) →
      Moves files caller 0 ⟨location, .directory :: rest⟩ ⟨location, rest⟩
  | here {location rest} : files.Searchable caller location →
      Moves files caller 0 ⟨location, .here :: rest⟩ ⟨location, rest⟩
  | above {location rest} : files.Searchable caller location →
      Moves files caller 0 ⟨location, .above :: rest⟩ ⟨location.dropLast, rest⟩
  | name {location name rest node} : files.Searchable caller location →
      name.utf8ByteSize ≤ Route.nameLimit → files.node? (location ++ [name]) = some node →
      (∀ target, node ≠ .link target) →
      Moves files caller 0 ⟨location, .name name :: rest⟩ ⟨location ++ [name], rest⟩
  | link {location name target rest} : files.Searchable caller location →
      name.utf8ByteSize ≤ Route.nameLimit →
      files.node? (location ++ [name]) = some (.link target) →
      Moves files caller 1 ⟨location, .name name :: rest⟩
        ⟨base target location, (Route.ofText target).parts ++ rest⟩

/-- Moves one after the other. -/
inductive Passes (files : Files) (caller : Caller) : (cost : Nat) → Cursor → Cursor → Prop
  | stop (cursor) : Passes files caller 0 cursor cursor
  | move {cost first middle total last} : Moves files caller cost first middle →
      Passes files caller total middle last → Passes files caller (cost + total) first last

/-- The parts lead from one location to another. -/
def Leads (files : Files) (caller : Caller) (cost : Nat) (location : Location)
    (parts : List Part) (last : Location) : Prop :=
  files.Passes caller cost ⟨location, parts⟩ ⟨last, []⟩

/-- Only the last name is missing in the directory that the parts lead to. -/
structure Dangles (files : Files) (caller : Caller) (cost : Nat) (location : Location)
    (parts : List Part) (directory : Location) (missing : String) : Prop where
  passes : files.Passes caller cost ⟨location, parts⟩ ⟨directory, [.name missing]⟩
  searchable : files.Searchable caller directory
  short : missing.utf8ByteSize ≤ Route.nameLimit
  nothing : files.node? (directory ++ [missing]) = none

theorem Passes.trans {cost total : Nat} {first middle last : Cursor}
    (h : files.Passes caller cost first middle) (h' : files.Passes caller total middle last) :
    files.Passes caller (cost + total) first last := by
  induction h with
  | stop cursor => simpa using h'
  | move hmove _ ih =>
    rw [Nat.add_assoc]
    exact .move hmove (ih h')

/-- Where a move goes is decided. -/
theorem Moves.unique {cost cost' : Nat} {first next next' : Cursor}
    (h : files.Moves caller cost first next) (h' : files.Moves caller cost' first next') :
    cost = cost' ∧ next = next' := by
  cases h with
  | directory hnode =>
    cases h'
    exact ⟨rfl, rfl⟩
  | here hsearch =>
    cases h'
    exact ⟨rfl, rfl⟩
  | above hsearch =>
    cases h'
    exact ⟨rfl, rfl⟩
  | name hsearch hshort hnode hlink =>
    cases h' with
    | name => exact ⟨rfl, rfl⟩
    | link _ _ hnode' => exact absurd (Option.some.inj (hnode.symm.trans hnode')) (hlink _)
  | link hsearch hshort hnode =>
    cases h' with
    | name _ _ hnode' hlink' => exact absurd (Option.some.inj (hnode'.symm.trans hnode)) (hlink' _)
    | link _ _ hnode' =>
      cases Option.some.inj (hnode.symm.trans hnode')
      exact ⟨rfl, rfl⟩

/-- Of two ways from one cursor, one is the beginning of the other. -/
theorem Passes.linear {cost cost' : Nat} {first last last' : Cursor}
    (h : files.Passes caller cost first last) (h' : files.Passes caller cost' first last') :
    ∃ total, files.Passes caller total last last' ∨ files.Passes caller total last' last := by
  induction h generalizing cost' with
  | stop cursor => exact ⟨cost', .inl h'⟩
  | move hmove hrest ih =>
    cases h' with
    | stop => exact ⟨_, .inr (.move hmove hrest)⟩
    | move hmove' hrest' =>
      obtain ⟨-, rfl⟩ := hmove.unique hmove'
      exact ih hrest'

/-- Parts behind those that a move is about stay where they are. -/
theorem Moves.append {cost : Nat} {first next : Cursor} (h : files.Moves caller cost first next)
    (behind : List Part) :
    files.Moves caller cost ⟨first.location, first.parts ++ behind⟩
      ⟨next.location, next.parts ++ behind⟩ := by
  cases h with
  | directory hnode => exact .directory hnode
  | here hsearch => exact .here hsearch
  | above hsearch => exact .above hsearch
  | name hsearch hshort hnode hlink => exact .name hsearch hshort hnode hlink
  | link hsearch hshort hnode =>
    rw [List.append_assoc]
    exact .link hsearch hshort hnode

theorem Passes.append {cost : Nat} {first last : Cursor} (h : files.Passes caller cost first last)
    (behind : List Part) :
    files.Passes caller cost ⟨first.location, first.parts ++ behind⟩
      ⟨last.location, last.parts ++ behind⟩ := by
  induction h with
  | stop cursor => exact .stop _
  | move hmove _ ih => exact .move (hmove.append behind) ih

/-- A move along the first of several parts does not look at those behind. -/
theorem Moves.of_append {cost : Nat} {location : Location} {part : Part}
    {parts behind : List Part} {next : Cursor}
    (h : files.Moves caller cost ⟨location, part :: parts ++ behind⟩ next) :
    ∃ rest, next.parts = rest ++ behind ∧
      files.Moves caller cost ⟨location, part :: parts⟩ ⟨next.location, rest⟩ := by
  cases h with
  | directory hnode => exact ⟨parts, rfl, .directory hnode⟩
  | here hsearch => exact ⟨parts, rfl, .here hsearch⟩
  | above hsearch => exact ⟨parts, rfl, .above hsearch⟩
  | name hsearch hshort hnode hlink => exact ⟨parts, rfl, .name hsearch hshort hnode hlink⟩
  | link hsearch hshort hnode =>
    exact ⟨_ ++ parts, (List.append_assoc ..).symm, .link hsearch hshort hnode⟩

/-- Moves through several parts get through the first ones, or stop among them. -/
theorem Passes.split {cost : Nat} {location : Location} {parts behind : List Part} {last : Cursor}
    (h : files.Passes caller cost ⟨location, parts ++ behind⟩ last) :
    (∃ early late middle, cost = early + late ∧ files.Leads caller early location parts middle ∧
        files.Passes caller late ⟨middle, behind⟩ last) ∨
      ∃ part rest, last.parts = part :: rest ++ behind ∧
        files.Passes caller cost ⟨location, parts⟩ ⟨last.location, part :: rest⟩ := by
  -- A link among the first parts puts those of its target before them.
  generalize hfirst : Cursor.mk location (parts ++ behind) = first at h
  induction h generalizing location parts with
  | stop cursor =>
    subst hfirst
    cases parts with
    | nil => exact .inl ⟨0, 0, location, rfl, .stop _, .stop _⟩
    | cons part rest => exact .inr ⟨part, rest, rfl, .stop _⟩
  | @move cost first middle total last hmove hrest ih =>
    subst hfirst
    cases parts with
    | nil => exact .inl ⟨0, cost + total, location, by omega, .stop _, .move hmove hrest⟩
    | cons part rest =>
      obtain ⟨parts', hparts, hmove'⟩ := hmove.of_append
      have hmiddle : Cursor.mk middle.location (parts' ++ behind) = middle := by
        rw [← hparts]
      rcases ih hmiddle with ⟨early, late, between, rfl, hearly, hlate⟩ | ⟨part', rest', hlast, hin⟩
      · exact .inl ⟨cost + early, late, between, by omega, .move hmove' hearly, hlate⟩
      · exact .inr ⟨part', rest', hlast, .move hmove' hin⟩

theorem Leads.split {cost : Nat} {location last : Location} {parts behind : List Part}
    (h : files.Leads caller cost location (parts ++ behind) last) :
    ∃ early late middle, cost = early + late ∧ files.Leads caller early location parts middle ∧
      files.Leads caller late middle behind last := by
  rcases Passes.split h with hsplit | ⟨part, rest, hlast, -⟩
  · exact hsplit
  · cases hlast

theorem Dangles.split {cost : Nat} {location directory : Location} {parts : List Part}
    {name missing : String}
    (h : files.Dangles caller cost location (parts ++ [.name name]) directory missing) :
    ∃ early late middle, cost = early + late ∧ files.Leads caller early location parts middle ∧
      files.Dangles caller late middle [.name name] directory missing := by
  rcases h.passes.split with ⟨early, late, middle, hcost, hearly, hlate⟩ | ⟨part, rest, hlast, -⟩
  · exact ⟨early, late, middle, hcost, hearly, hlate, h.searchable, h.short, h.nothing⟩
  · simp at hlast

/-! ## Lookups as moves -/

/-- Where a lookup ends, in terms of moves. -/
def Found.Along (files : Files) (caller : Caller) (cost : Nat) (location : Location)
    (parts : List Part) : Found → Prop
  | .node last => files.Leads caller cost location parts last
  | .vacancy directory missing => files.Dangles caller cost location parts directory missing

theorem Moves.along {cost total : Nat} {first next : Cursor} {found : Found}
    (hmove : files.Moves caller cost first next)
    (h : Found.Along files caller total next.location next.parts found) :
    Found.Along files caller (cost + total) first.location first.parts found := by
  cases found with
  | node last => exact Passes.move hmove h
  | vacancy directory missing => exact ⟨.move hmove h.passes, h.searchable, h.short, h.nothing⟩

/-- Where a lookup over at most `links` links ends: along the moves of its parts, or at a link
that is to be removed. -/
inductive Found.Ends (files : Files) (caller : Caller) (purpose : Purpose) (links : Nat)
    (location : Location) (parts : List Part) : Found → Prop
  | along {cost found} : cost ≤ links → Found.Along files caller cost location parts found →
      Ends files caller purpose links location parts found
  | link {entry target} : purpose = .remove → files.node? entry = some (.link target) →
      Ends files caller purpose links location parts (.node entry)

theorem Moves.ends {cost links : Nat} {first next : Cursor} {found : Found}
    (hmove : files.Moves caller cost first next)
    (h : Found.Ends files caller purpose links next.location next.parts found) :
    Found.Ends files caller purpose (links + cost) first.location first.parts found := by
  cases h with
  | along hcost halong => exact .along (by omega) (hmove.along halong)
  | link hremove hlink => exact .link hremove hlink

theorem walk_ends {links : Nat} {location : Location} {parts : List Part} {found : Found}
    (h : files.walk caller purpose links location parts = .ok found) :
    Found.Ends files caller purpose links location parts found := by
  -- On the links that are left, since a link brings new parts; then on the parts.
  induction links using Nat.strongRecOn generalizing location parts with
  | ind links fewer =>
  induction parts generalizing location with
  | nil =>
    rw [walk_eq] at h
    cases h
    exact .along (Nat.zero_le _) (.stop _)
  | cons part rest ih =>
    cases part with
    | directory =>
      rw [walk_eq] at h
      obtain ⟨mode, hmode, hrest⟩ := bind_ok h
      rw [← walk_eq] at hrest
      have hmove : files.Moves caller 0 ⟨location, .directory :: rest⟩ ⟨location, rest⟩ :=
        .directory (requireDirectory_ok.1 hmode)
      exact hmove.ends (ih hrest)
    | here =>
      rw [walk_eq] at h
      obtain ⟨done, hsearch, hrest⟩ := bind_ok h
      rw [← walk_eq] at hrest
      have hmove : files.Moves caller 0 ⟨location, .here :: rest⟩ ⟨location, rest⟩ :=
        .here (requireSearch_ok.1 hsearch)
      exact hmove.ends (ih hrest)
    | above =>
      rw [walk_eq] at h
      obtain ⟨done, hsearch, hrest⟩ := bind_ok h
      rw [← walk_eq] at hrest
      have hmove : files.Moves caller 0 ⟨location, .above :: rest⟩ ⟨location.dropLast, rest⟩ :=
        .above (requireSearch_ok.1 hsearch)
      exact hmove.ends (ih hrest)
    | name name =>
      obtain ⟨hsearch, hshort, hmet⟩ := walk_name_ok h
      cases hnode : files.node? (location ++ [name]) with
      | none =>
        rw [hnode] at hmet
        obtain ⟨rfl, rfl⟩ := hmet
        exact .along (Nat.zero_le _) ⟨.stop _, hsearch, hshort, hnode⟩
      | some node =>
        rw [hnode] at hmet
        by_cases hlink : ∃ target, node = .link target
        · obtain ⟨target, rfl⟩ := hlink
          rcases hmet with ⟨hremove, rfl, rfl⟩ | ⟨left, rfl, hrest⟩
          · exact .link hremove hnode
          · have hmove : files.Moves caller 1 ⟨location, .name name :: rest⟩
                ⟨base target location, (Route.ofText target).parts ++ rest⟩ :=
              .link hsearch hshort hnode
            exact hmove.ends (fewer left (Nat.lt_succ_self _) hrest)
        · have hother : ∀ target, node ≠ .link target := fun target heq => hlink ⟨target, heq⟩
          have hrest : files.walk caller purpose links (location ++ [name]) rest = .ok found := by
            cases node with
            | link target => exact absurd rfl (hother target)
            | directory mode => exact hmet
            | file mode bytes => exact hmet
            | device device => exact hmet
          have hmove : files.Moves caller 0 ⟨location, .name name :: rest⟩
              ⟨location ++ [name], rest⟩ := .name hsearch hshort hnode hother
          exact hmove.ends (ih hrest)

/-- A lookup that finds something and follows links to their end has passed all its
parts, or stands before a missing name. -/
theorem along_of_walk {links : Nat} {location : Location} {parts : List Part} {found : Found}
    (following : purpose ≠ .remove)
    (h : files.walk caller purpose links location parts = .ok found) :
    ∃ cost, cost ≤ links ∧ Found.Along files caller cost location parts found := by
  cases walk_ends h with
  | along hcost halong => exact ⟨_, hcost, halong⟩
  | link hremove _ => exact absurd hremove following

theorem onlyDemands_append {parts behind : List Part} (h : onlyDemands behind = false) :
    onlyDemands (parts ++ behind) = false := by
  unfold onlyDemands at h ⊢
  rw [List.all_append, h, Bool.and_false]

/-- A lookup makes the moves along its first parts whatever stands behind these; only
what is to be created needs something there that is not a mere demand. -/
theorem Moves.walk {cost links : Nat} {first next : Cursor}
    (h : files.Moves caller cost first next) (enough : cost ≤ links) (behind : List Part)
    (plain : purpose ≠ .inspect → onlyDemands behind = false) :
    files.walk caller purpose links first.location (first.parts ++ behind) =
      files.walk caller purpose (links - cost) next.location (next.parts ++ behind) := by
  cases h with
  | @directory location rest mode hnode =>
    rw [walk_eq, Nat.sub_zero, walk_eq]
    show (files.requireDirectory location >>= fun _ => _) = _
    rw [requireDirectory_ok.2 hnode]
    rfl
  | @here location rest hsearch =>
    rw [walk_eq, Nat.sub_zero, walk_eq]
    show (files.requireSearch caller location >>= fun _ => _) = _
    rw [requireSearch_ok.2 hsearch]
    rfl
  | @above location rest hsearch =>
    rw [walk_eq, Nat.sub_zero, walk_eq]
    show (files.requireSearch caller location >>= fun _ => _) = _
    rw [requireSearch_ok.2 hsearch]
    rfl
  | @name location name rest node hsearch hshort hnode hother =>
    show files.walk caller purpose links location (.name name :: (rest ++ behind)) = _
    have hplain (hcreate : purpose = .create) : rest ++ behind = [] ∨
        onlyDemands (rest ++ behind) = false :=
      .inr (onlyDemands_append (plain (by simp [hcreate])))
    rw [walk_name hsearch hshort hplain, hnode]
    cases node with
    | link target => exact absurd rfl (hother target)
    | directory mode => rfl
    | file mode bytes => rfl
    | device device => rfl
  | @link location name target rest hsearch hshort hnode =>
    obtain ⟨fewer, rfl⟩ : ∃ fewer, links = fewer + 1 := ⟨links - 1, by omega⟩
    -- Behind the link stands something that is no mere demand, so even a removal follows it.
    have hfollow : (purpose = .remove && (rest ++ behind).isEmpty) = false := by
      by_cases hremove : purpose = .remove
      · have hbehind := plain (by simp [hremove])
        cases behind with
        | nil => cases hbehind
        | cons part parts => simp
      · simp [hremove]
    show files.walk caller purpose (fewer + 1) location (.name name :: (rest ++ behind)) = _
    have hplain (hcreate : purpose = .create) : rest ++ behind = [] ∨
        onlyDemands (rest ++ behind) = false :=
      .inr (onlyDemands_append (plain (by simp [hcreate])))
    rw [walk_name hsearch hshort hplain, hnode]
    simp only [hfollow, Bool.false_eq_true, ↓reduceIte, List.append_assoc, Nat.add_sub_cancel]
    rfl

theorem Passes.walk {cost links : Nat} {first last : Cursor}
    (h : files.Passes caller cost first last) (enough : cost ≤ links) (behind : List Part)
    (plain : purpose ≠ .inspect → onlyDemands behind = false) :
    files.walk caller purpose links first.location (first.parts ++ behind) =
      files.walk caller purpose (links - cost) last.location (last.parts ++ behind) := by
  induction h generalizing links with
  | stop cursor => rfl
  | move hmove _ ih =>
    rw [hmove.walk (by omega) behind plain, ih (by omega), Nat.sub_sub]

/-- Parts that lead somewhere can be looked up from there on. -/
theorem walk_append {cost links : Nat} {location middle : Location} {parts : List Part}
    (h : files.Leads caller cost location parts middle) (enough : cost ≤ links)
    (behind : List Part) (plain : purpose ≠ .inspect → onlyDemands behind = false) :
    files.walk caller purpose links location (parts ++ behind) =
      files.walk caller purpose (links - cost) middle behind :=
  h.walk enough behind plain

/-- What parts lead to is found by inspecting them. -/
theorem inspect_of_leads {cost links : Nat} {location last : Location} {parts : List Part}
    (h : files.Leads caller cost location parts last) (enough : cost ≤ links) :
    files.walk caller .inspect links location parts = .ok (.node last) := by
  have hwalk : files.walk caller .inspect links location (parts ++ []) =
      files.walk caller .inspect (links - cost) last [] :=
    walk_append h enough [] (by simp)
  rw [List.append_nil] at hwalk
  rw [hwalk, walk_eq]
  rfl

/-! ## Lookups in another tree -/

/-- A link at whose end a name is missing. -/
def Broken (files : Files) (caller : Caller) (location : Location) (target : String) : Prop :=
  ∃ cost directory missing, files.Dangles caller cost (base target location)
    (Route.ofText target).parts directory missing

/-- Nothing leads through a broken link. -/
theorem Broken.not_leads {location : Location} {target : String}
    (h : files.Broken caller location target) {cost : Nat} {behind : List Part} {last : Location} :
    ¬ files.Leads caller cost (base target location) ((Route.ofText target).parts ++ behind)
      last := by
  obtain ⟨early, directory, missing, hdangles⟩ := h
  intro hleads
  -- The moves through the target are decided, and they stop before the missing name.
  have hstands := hdangles.passes.append behind
  obtain ⟨total, hon | hback⟩ := hstands.linear hleads
  · cases hon with
    | move hmove _ =>
      cases hmove with
      | name _ _ hnode _ => cases hdangles.nothing.symm.trans hnode
      | link _ _ hnode => cases hdangles.nothing.symm.trans hnode
  · cases hback with
    | move hmove _ => cases hmove

/-- A tree has all nodes of another one, except for dead links. -/
def Keeps (other files : Files) (dead : Location → String → Prop) : Prop :=
  ∀ location node, files.node? location = some node → other.node? location = some node ∨
    ∃ target, node = .link target ∧ dead location.dropLast target

variable {dead : Location → String → Prop}

theorem Keeps.directory (keeps : other.Keeps files dead) {location : Location} {mode : Mode}
    (h : files.node? location = some (.directory mode)) :
    other.node? location = some (.directory mode) := by
  rcases keeps location _ h with hkept | ⟨target, hlink, -⟩
  · exact hkept
  · cases hlink

theorem Keeps.searchable (keeps : other.Keeps files dead) {location : Location}
    (h : files.Searchable caller location) : other.Searchable caller location := by
  obtain ⟨mode, hmode, hsearch⟩ := h
  exact ⟨mode, keeps.directory hmode, hsearch⟩

/-- A move can be made in a tree that keeps the nodes, unless it follows a dead link. -/
theorem Moves.kept (keeps : other.Keeps files dead) {cost : Nat} {first next : Cursor}
    (h : files.Moves caller cost first next) :
    other.Moves caller cost first next ∨ ∃ location target rest, dead location target ∧
      next = ⟨base target location, (Route.ofText target).parts ++ rest⟩ := by
  cases h with
  | directory hnode => exact .inl (.directory (keeps.directory hnode))
  | here hsearch => exact .inl (.here (keeps.searchable hsearch))
  | above hsearch => exact .inl (.above (keeps.searchable hsearch))
  | name hsearch hshort hnode hother =>
    rcases keeps _ _ hnode with hkept | ⟨target, hlink, -⟩
    · exact .inl (.name (keeps.searchable hsearch) hshort hkept hother)
    · exact absurd hlink (hother target)
  | @link location name target rest hsearch hshort hnode =>
    rcases keeps _ _ hnode with hkept | ⟨target', hlink, hdead⟩
    · exact .inl (.link (keeps.searchable hsearch) hshort hkept)
    · cases hlink
      rw [List.dropLast_concat] at hdead
      exact .inr ⟨location, target, rest, hdead, rfl⟩

/-- Parts lead to the same place in a tree that has all the nodes but for broken
links. -/
theorem Leads.transport (keeps : other.Keeps files (files.Broken caller)) {cost : Nat}
    {location last : Location} {parts : List Part}
    (h : files.Leads caller cost location parts last) :
    other.Leads caller cost location parts last := by
  unfold Leads at h ⊢
  generalize hfirst : Cursor.mk location parts = first at h ⊢
  generalize hlast : Cursor.mk last [] = final at h ⊢
  clear hfirst
  induction h with
  | stop cursor => exact .stop cursor
  | move hmove hrest ih =>
    rcases hmove.kept keeps with hkept | ⟨location, target, rest, hbroken, rfl⟩
    · exact .move hkept (ih hlast)
    · -- A broken link would have led nowhere in the first place.
      subst hlast
      exact absurd hrest hbroken.not_leads

/-- A tree has all nodes of another one, but for the bytes of its files. -/
def Carries (other files : Files) : Prop :=
  ∀ location node, files.node? location = some node → other.node? location = some node ∨
    ∃ mode old new, node = .file mode old ∧ other.node? location = some (.file mode new)

theorem Carries.directory (carries : other.Carries files) {location : Location} {mode : Mode}
    (h : files.node? location = some (.directory mode)) :
    other.node? location = some (.directory mode) := by
  rcases carries location _ h with hkept | ⟨mode', old, new, hfile, -⟩
  · exact hkept
  · cases hfile

theorem Carries.searchable (carries : other.Carries files) {location : Location}
    (h : files.Searchable caller location) : other.Searchable caller location := by
  obtain ⟨mode, hmode, hsearch⟩ := h
  exact ⟨mode, carries.directory hmode, hsearch⟩

/-- No move looks at the bytes of a file. -/
theorem Carries.moves (carries : other.Carries files) {cost : Nat} {first next : Cursor}
    (h : files.Moves caller cost first next) : other.Moves caller cost first next := by
  cases h with
  | directory hnode => exact .directory (carries.directory hnode)
  | here hsearch => exact .here (carries.searchable hsearch)
  | above hsearch => exact .above (carries.searchable hsearch)
  | name hsearch hshort hnode hother =>
    rcases carries _ _ hnode with hkept | ⟨mode, old, new, -, hfile⟩
    · exact .name (carries.searchable hsearch) hshort hkept hother
    · exact .name (carries.searchable hsearch) hshort hfile (by simp)
  | link hsearch hshort hnode =>
    rcases carries _ _ hnode with hkept | ⟨mode, old, new, hfile, -⟩
    · exact .link (carries.searchable hsearch) hshort hkept
    · cases hfile

theorem Carries.passes (carries : other.Carries files) {cost : Nat} {first last : Cursor}
    (h : files.Passes caller cost first last) : other.Passes caller cost first last := by
  induction h with
  | stop cursor => exact .stop cursor
  | move hmove _ ih => exact .move (carries.moves hmove) ih

/-- Where a name was missing, the parts lead to what is put there. -/
theorem Dangles.filled (carries : other.Carries files) {cost : Nat}
    {location directory : Location} {parts : List Part} {missing : String} {node : Node}
    (h : files.Dangles caller cost location parts directory missing)
    (there : other.node? (directory ++ [missing]) = some node)
    (hother : ∀ target, node ≠ .link target) :
    other.Leads caller cost location parts (directory ++ [missing]) :=
  (carries.passes h.passes).trans
    (.move (.name (carries.searchable h.searchable) h.short there hother) (.stop _))

end Files

end SgxActivation.Filesystem
