/-!
# Tables in key order

A table is a list of pairs whose keys increase. `Keyed.insert` keeps that order and lets the newer
value replace the older one; `Keyed.find?` is what it stored.
-/

namespace PhasedBuild.Keyed

variable {α : Type}

/-- The value under a key. -/
def find? (key : String) : List (String × α) → Option α
  | [] => none
  | (k, v) :: rest => if k = key then some v else find? key rest

/-- Puts a value under a key, in the place of the value that was there. -/
def insert (key : String) (value : α) : List (String × α) → List (String × α)
  | [] => [(key, value)]
  | (k, v) :: rest =>
    if key = k then (key, value) :: rest
    else if key < k then (key, value) :: (k, v) :: rest
    else (k, v) :: insert key value rest

/-- The table of a list of pairs; of two with one key the later counts. -/
def ofList (pairs : List (String × α)) : List (String × α) :=
  pairs.foldl (fun table (k, v) => insert k v table) []

/-- The pairs of `lower` added to `upper` where `upper` has no value. -/
def fillFrom (upper lower : List (String × α)) : List (String × α) :=
  lower.foldl (fun table (k, v) => if (find? k table).isSome then table else insert k v table) upper

/-- Takes a key out. -/
def erase (key : String) (table : List (String × α)) : List (String × α) :=
  table.filter (·.1 != key)

/-- Whether a key has a value. -/
def contains (key : String) (table : List (String × α)) : Bool :=
  (find? key table).isSome

@[simp] theorem find?_insert_self (key : String) (value : α) (table : List (String × α)) :
    find? key (insert key value table) = some value := by
  induction table with
  | nil => simp [insert, find?]
  | cons kv rest ih =>
    obtain ⟨k, v⟩ := kv
    unfold insert
    split
    · simp [find?]
    · split
      · simp [find?]
      · next h _ => simpa [find?, Ne.symm h] using ih

/-- Inserting under one key leaves what stands under the others. -/
theorem find?_insert_of_ne {key other : String} (h : other ≠ key) (value : α)
    (table : List (String × α)) : find? other (insert key value table) = find? other table := by
  induction table with
  | nil => simp [insert, find?, Ne.symm h]
  | cons kv rest ih =>
    obtain ⟨k, v⟩ := kv
    unfold insert
    split
    next he => subst he; simp [find?, Ne.symm h]
    next he =>
      split
      · simp [find?, Ne.symm h]
      · simp [find?, ih]

/-- What is found is an entry of the table. -/
theorem mem_of_find? {key : String} {value : α} {table : List (String × α)}
    (h : find? key table = some value) : (key, value) ∈ table := by
  induction table with
  | nil => cases h
  | cons entry rest ih =>
    obtain ⟨k, v⟩ := entry
    rw [find?] at h
    split at h
    next heq =>
      obtain rfl := Option.some.inj h
      rw [heq]
      exact List.mem_cons_self
    next => exact List.mem_cons_of_mem _ (ih h)

end PhasedBuild.Keyed
