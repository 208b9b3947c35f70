/-!
# Finite tables

A table holds at most one value per key. It is looked into by `get?`, and each
operation is described by what `get?` finds afterwards: `get?_insert` and
`get?_erase`. `keys` lists the keys that have a value, each once.
-/

namespace SgxActivation

/-- A finite map, as a list of pairs of which the first with a key counts. -/
structure Table (κ α : Type) where
  pairs : List (κ × α) := []

namespace Table

variable {κ α : Type} [DecidableEq κ]

/-- The value at a key among pairs. -/
def find? (key : κ) : List (κ × α) → Option α
  | [] => none
  | (other, value) :: rest => if other = key then some value else find? key rest

/-- The value at a key. -/
def get? (table : Table κ α) (key : κ) : Option α := find? key table.pairs

/-- Whether there is a value at a key. -/
def contains (table : Table κ α) (key : κ) : Bool := (table.get? key).isSome

/-- Takes away whatever is at a key. -/
def erase (table : Table κ α) (key : κ) : Table κ α :=
  ⟨table.pairs.filter fun pair => pair.1 ≠ key⟩

/-- Puts a value at a key, in place of any other. -/
def insert (table : Table κ α) (key : κ) (value : α) : Table κ α :=
  ⟨(key, value) :: (table.erase key).pairs⟩

/-- The table that results from inserting the pairs one after the other. -/
def ofList (pairs : List (κ × α)) : Table κ α :=
  pairs.foldl (fun table pair => table.insert pair.1 pair.2) ⟨[]⟩

/-- The keys that have a value. -/
def keys (table : Table κ α) : List κ := (table.pairs.map Prod.fst).eraseDups

@[simp]
theorem get?_empty (key : κ) : (⟨[]⟩ : Table κ α).get? key = none := rfl

theorem mem_of_find? {pairs : List (κ × α)} {key : κ} {value : α}
    (h : find? key pairs = some value) : (key, value) ∈ pairs := by
  induction pairs with
  | nil => cases h
  | cons pair rest ih =>
    obtain ⟨other, first⟩ := pair
    by_cases hother : other = key
    · simp only [find?, if_pos hother] at h
      rw [← hother, ← Option.some.inj h]
      exact List.mem_cons_self
    · simp only [find?, if_neg hother] at h
      exact List.mem_cons_of_mem _ (ih h)

theorem find?_isSome_iff {pairs : List (κ × α)} {key : κ} :
    (find? key pairs).isSome = true ↔ key ∈ pairs.map Prod.fst := by
  induction pairs with
  | nil => simp [find?]
  | cons pair rest ih =>
    obtain ⟨other, first⟩ := pair
    by_cases hother : other = key
    · simp [find?, hother]
    · simp [find?, hother, ih, Ne.symm hother]

/-- The keys are those that have a value. -/
theorem mem_keys {table : Table κ α} {key : κ} :
    key ∈ table.keys ↔ (table.get? key).isSome = true := by
  unfold keys get?
  rw [List.mem_eraseDups, find?_isSome_iff]

theorem find?_filter_ne (pairs : List (κ × α)) (key other : κ) :
    find? other (pairs.filter fun pair => pair.1 ≠ key) =
      if other = key then none else find? other pairs := by
  induction pairs with
  | nil => simp [find?]
  | cons pair rest ih =>
    obtain ⟨first, value⟩ := pair
    simp only [ne_eq, decide_not] at ih ⊢
    by_cases hfirst : first = key
    · subst hfirst
      by_cases hother : other = first
      · subst hother; simpa [find?] using ih
      · simpa [find?, hother, Ne.symm hother] using ih
    · by_cases hother : first = other
      · subst hother; simp [find?, hfirst]
      · simpa [find?, hfirst, hother] using ih

theorem get?_erase (table : Table κ α) (key other : κ) :
    (table.erase key).get? other = if other = key then none else table.get? other :=
  find?_filter_ne table.pairs key other

theorem get?_insert (table : Table κ α) (key other : κ) (value : α) :
    (table.insert key value).get? other =
      if other = key then some value else table.get? other := by
  show find? other ((key, value) :: (table.erase key).pairs) = _
  have herase := table.get?_erase key other
  unfold get? at herase ⊢
  by_cases h : other = key
  · simp [find?, h]
  · simp [find?, Ne.symm h, h, herase]

@[simp]
theorem get?_insert_self (table : Table κ α) (key : κ) (value : α) :
    (table.insert key value).get? key = some value := by
  simp [get?_insert]

@[simp]
theorem get?_erase_self (table : Table κ α) (key : κ) :
    (table.erase key).get? key = none := by
  simp [get?_erase]

end Table

end SgxActivation
