/-!
# Tables in order of insertion

A table maps keys to entries and remembers the order in which the keys first came in. Writing
under a key that is there replaces its entry in place.
-/

namespace Rulebook

/-- Entries under keys, in the order in which the keys came in. -/
structure Table (κ α : Type) where
  entries : List (κ × α)
deriving Repr, Inhabited

namespace Table

variable {κ α : Type} [DecidableEq κ]

/-- The table without entries. -/
def empty : Table κ α := ⟨[]⟩

/-- The entry under a key. -/
def get? (table : Table κ α) (key : κ) : Option α := table.entries.lookup key

/-- Whether there is an entry under a key. -/
def has (table : Table κ α) (key : κ) : Bool := (table.get? key).isSome

/-- The keys in order. -/
def keys (table : Table κ α) : List κ := table.entries.map Prod.fst

/-- The entries in the order of their keys. -/
def values (table : Table κ α) : List α := table.entries.map Prod.snd

/-- How many keys there are. -/
def size (table : Table κ α) : Nat := table.entries.length

/-- Writes an entry into a list of entries, in place or at the end. -/
def insertEntry (key : κ) (entry : α) : List (κ × α) → List (κ × α)
  | [] => [(key, entry)]
  | (other, old) :: rest =>
    if other = key then (key, entry) :: rest else (other, old) :: insertEntry key entry rest

/-- The table with an entry written under a key. -/
def insert (table : Table κ α) (key : κ) (entry : α) : Table κ α :=
  ⟨insertEntry key entry table.entries⟩

/-- The table without the entry under a key. -/
def erase (table : Table κ α) (key : κ) : Table κ α :=
  ⟨table.entries.filter fun entry => entry.1 ≠ key⟩

/-- A table from keys and entries, the later ones written over the earlier. -/
def ofList (entries : List (κ × α)) : Table κ α :=
  entries.foldl (fun table entry => table.insert entry.1 entry.2) empty

/-! ## Reading what was written -/

@[simp] theorem get?_empty (key : κ) : (empty : Table κ α).get? key = none := rfl

theorem lookup_insertEntry (key query : κ) (entry : α) (entries : List (κ × α)) :
    (insertEntry key entry entries).lookup query =
      if query = key then some entry else entries.lookup query := by
  induction entries with
  | nil =>
    by_cases here : query = key
    · rw [insertEntry, here, List.lookup_cons_self, if_pos rfl]
    · rw [insertEntry, List.lookup_cons, beq_false_of_ne here, if_neg here]
  | cons head rest ih =>
    obtain ⟨other, old⟩ := head
    rw [insertEntry]
    by_cases same : other = key
    · subst same
      rw [if_pos rfl, List.lookup_cons, List.lookup_cons]
      by_cases here : query = other
      · rw [here, beq_self_eq_true, if_pos rfl]
      · rw [beq_false_of_ne here, if_neg here]
    · rw [if_neg same, List.lookup_cons, List.lookup_cons, ih]
      by_cases here : query = other
      · simp [here, same]
      · rw [beq_false_of_ne here]

/-- Only the entry under the key that is written changes. -/
theorem get?_insert (table : Table κ α) (key query : κ) (entry : α) :
    (table.insert key entry).get? query =
      if query = key then some entry else table.get? query :=
  lookup_insertEntry key query entry table.entries

theorem map_fst_insertEntry (key : κ) (entry : α) (entries : List (κ × α)) :
    (insertEntry key entry entries).map Prod.fst =
      if key ∈ entries.map Prod.fst then entries.map Prod.fst
      else entries.map Prod.fst ++ [key] := by
  induction entries with
  | nil => simp [insertEntry]
  | cons head rest ih =>
    obtain ⟨other, old⟩ := head
    by_cases same : other = key
    · simp [insertEntry, same]
    · have apart : key ≠ other := fun h => same h.symm
      simp only [insertEntry, same, if_false, List.map_cons, ih, List.mem_cons, apart, false_or]
      split <;> simp

/-- A key that is there keeps its place, and a new one comes last. -/
theorem keys_insert (table : Table κ α) (key : κ) (entry : α) :
    (table.insert key entry).keys =
      if key ∈ table.keys then table.keys else table.keys ++ [key] :=
  map_fst_insertEntry key entry table.entries

end Table

end Rulebook
