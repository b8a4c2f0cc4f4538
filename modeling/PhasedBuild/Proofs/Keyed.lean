import Mathlib.Data.List.Induction
import Mathlib.Data.String.Basic
import PhasedBuild.Keyed

/-!
# Tables in key order

* `Keyed.IsSorted`: the keys of a table increase. Putting values in and taking keys out keeps it so,
  and what a sorted table holds is known from its keys (`Keyed.insert_perm`, `Keyed.perm_of_find?`).
* `Keyed.find?_filter`: what is under a key in a part of a table.
* `Keyed.find?_fillFrom`, `Keyed.fillFrom_assoc`: what is under a key when a table is filled from
  another one, and that several may be filled from each other in any grouping.
-/

namespace PhasedBuild.Keyed

variable {α : Type} {key : String} {table : List (String × α)}

/-! ### What is under a key -/

/-- A part of a table that goes by the keys has the same under each key that is in it. -/
theorem find?_filter (keep : String → Bool) (key : String) (table : List (String × α)) :
    find? key (table.filter fun entry => keep entry.1) =
      if keep key then find? key table else none := by
  induction table with
  | nil => simp [find?]
  | cons entry rest ih =>
    obtain ⟨k, v⟩ := entry
    by_cases hk : k = key
    · subst hk
      cases hkeep : keep k <;> simp [hkeep, find?, ih]
    · cases hkeep : keep k <;> simp [hkeep, find?, hk, ih]

/-- Erasing a key leaves what stands under the others. -/
theorem find?_erase_of_ne {other : String} (h : other ≠ key) (table : List (String × α)) :
    find? other (erase key table) = find? other table := by
  rw [erase, find?_filter (· != key), if_pos (by simpa using h)]

/-- Nothing stands under a key that has been erased. -/
@[simp] theorem find?_erase_self (key : String) (table : List (String × α)) :
    find? key (erase key table) = none := by
  rw [erase, find?_filter (· != key), if_neg (by simp)]

/-- Something stands under every key of a table. -/
theorem exists_find?_of_mem_keys (h : key ∈ table.map (·.1)) :
    ∃ value, find? key table = some value := by
  induction table with
  | nil => cases h
  | cons entry rest ih =>
    obtain ⟨k, v⟩ := entry
    rw [find?]
    split
    next => exact ⟨v, rfl⟩
    next hne => exact ih ((List.mem_cons.1 h).resolve_left (Ne.symm hne))

/-- Of two values that are put under one key the later counts. -/
@[simp] theorem insert_insert_self (key : String) (former value : α) (table : List (String × α)) :
    insert key value (insert key former table) = insert key value table := by
  induction table with
  | nil => simp [insert]
  | cons entry rest ih =>
    obtain ⟨k, v⟩ := entry
    by_cases heq : key = k
    · simp [insert, heq]
    · by_cases hlt : key < k
      · simp [insert, heq, hlt]
      · simp [insert, heq, hlt, ih]

/-! ### Sorted tables -/

/-- The keys of a table increase. -/
def IsSorted (table : List (String × α)) : Prop :=
  table.Pairwise (·.1 < ·.1)

/-- Erasing a key keeps a table in order. -/
theorem IsSorted.erase (h : IsSorted table) (key : String) : IsSorted (erase key table) :=
  h.filter _

/-- Erasing a key that is not there changes nothing. -/
theorem erase_eq_self (h : ∀ entry ∈ table, entry.1 ≠ key) : erase key table = table :=
  List.filter_eq_self.2 fun entry hentry => by simp [h entry hentry]

/-- An entry of a table with something inserted is that or an entry of the table. -/
theorem mem_insert_cases {value : α} {entry : String × α} (h : entry ∈ insert key value table) :
    entry = (key, value) ∨ entry ∈ table := by
  induction table with
  | nil => exact .inl (List.mem_singleton.1 h)
  | cons first rest ih =>
    unfold insert at h
    split at h
    next =>
      rcases List.mem_cons.1 h with rfl | h
      · exact .inl rfl
      · exact .inr (List.mem_cons_of_mem _ h)
    next =>
      split at h
      next => exact List.mem_cons.1 h
      next =>
        rcases List.mem_cons.1 h with rfl | h
        · exact .inr List.mem_cons_self
        · exact (ih h).imp_right (List.mem_cons_of_mem _)

/-- What a table is made from is all that is in it. -/
theorem mem_of_mem_ofList {pairs : List (String × α)} {entry : String × α}
    (h : entry ∈ ofList pairs) : entry ∈ pairs := by
  have hall : ∀ entry ∈ ofList pairs, entry ∈ pairs := by
    apply List.foldlRecOn (motive := fun table => ∀ entry ∈ table, entry ∈ pairs)
    · intro entry hentry
      cases hentry
    · intro table htable pair hpair entry hentry
      rcases mem_insert_cases hentry with rfl | hentry
      · exact hpair
      · exact htable entry hentry
  exact hall entry h

/-- Inserting keeps a table in order. -/
theorem IsSorted.insert (h : IsSorted table) (key : String) (value : α) :
    IsSorted (insert key value table) := by
  induction table with
  | nil => exact List.pairwise_singleton _ _
  | cons first rest ih =>
    obtain ⟨hfirst, hrest⟩ := List.pairwise_cons.1 h
    unfold Keyed.insert
    split
    next heq => exact List.pairwise_cons.2 ⟨fun entry hentry => heq ▸ hfirst entry hentry, hrest⟩
    next hne =>
      split
      next hlt =>
        refine List.pairwise_cons.2 ⟨fun entry hentry => ?_, h⟩
        rcases List.mem_cons.1 hentry with rfl | hentry
        · exact hlt
        · exact lt_trans hlt (hfirst entry hentry)
      next hle =>
        refine List.pairwise_cons.2 ⟨fun entry hentry => ?_, ih hrest⟩
        rcases mem_insert_cases hentry with rfl | hentry
        · exact lt_of_le_of_ne (not_lt.1 hle) (Ne.symm hne)
        · exact hfirst entry hentry

/-- A table that is made of a list is in order. -/
theorem isSorted_ofList (pairs : List (String × α)) : IsSorted (ofList pairs) := by
  apply List.foldlRecOn (motive := IsSorted)
  · exact .nil
  · exact fun table htable pair _ => htable.insert pair.1 pair.2

/-- The last pair of a list is inserted last. -/
theorem ofList_concat (pairs : List (String × α)) (pair : String × α) :
    ofList (pairs ++ [pair]) = insert pair.1 pair.2 (ofList pairs) :=
  List.foldl_append

/-- Every key of a list has a value in the table that is made from it. -/
theorem isSome_find?_ofList {pairs : List (String × α)} (h : key ∈ pairs.map (·.1)) :
    (find? key (ofList pairs)).isSome = true := by
  induction pairs using List.reverseRecOn with
  | nil => cases h
  | append_singleton pairs pair ih =>
    rw [ofList_concat]
    by_cases heq : key = pair.1
    · rw [heq, find?_insert_self]
      rfl
    · rw [find?_insert_of_ne heq]
      refine ih ?_
      rw [List.map_append, List.mem_append] at h
      exact h.resolve_right fun hlast => heq (List.mem_singleton.1 hlast)

/-- The value that is put under a key takes the place of the one that was there. -/
theorem insert_perm (h : IsSorted table) (key : String) (value : α) :
    (insert key value table).Perm ((key, value) :: erase key table) := by
  induction table with
  | nil => exact .refl _
  | cons first rest ih =>
    obtain ⟨hfirst, hrest⟩ := List.pairwise_cons.1 h
    unfold insert
    split
    next heq =>
      have hothers : ∀ entry ∈ rest, entry.1 ≠ key := fun entry hentry =>
        heq ▸ ne_of_gt (hfirst entry hentry)
      rw [show erase key (first :: rest) = erase key rest by simp [erase, heq],
        erase_eq_self hothers]
    next hne =>
      have hkeep : erase key (first :: rest) = first :: erase key rest := by
        simp [erase, Ne.symm hne]
      split
      next hlt =>
        have hothers : ∀ entry ∈ first :: rest, entry.1 ≠ key := by
          intro entry hentry
          rcases List.mem_cons.1 hentry with rfl | hentry
          · exact ne_of_gt hlt
          · exact ne_of_gt (lt_trans hlt (hfirst entry hentry))
        rw [erase_eq_self hothers]
      next =>
        rw [hkeep]
        exact ((ih hrest).cons first).trans (List.Perm.swap _ _ _)

/-- A table is the value under a key and all that is under other keys. -/
theorem perm_of_find? {value : α} (h : IsSorted table) (hfind : find? key table = some value) :
    table.Perm ((key, value) :: erase key table) := by
  induction table with
  | nil => cases hfind
  | cons first rest ih =>
    obtain ⟨hfirst, hrest⟩ := List.pairwise_cons.1 h
    obtain ⟨other, held⟩ := first
    by_cases heq : other = key
    · rw [find?, if_pos heq] at hfind
      obtain rfl := Option.some.inj hfind
      have hothers : ∀ entry ∈ rest, entry.1 ≠ key := fun entry hentry =>
        heq ▸ ne_of_gt (hfirst entry hentry)
      rw [show erase key ((other, held) :: rest) = erase key rest by simp [erase, heq],
        erase_eq_self hothers, heq]
    · rw [find?, if_neg heq] at hfind
      rw [show erase key ((other, held) :: rest) = (other, held) :: erase key rest by
        simp [erase, heq]]
      exact ((ih hrest hfind).cons _).trans (List.Perm.swap _ _ _)

/-- Putting a value where it is already changes nothing. -/
theorem insert_eq_self {value : α} (h : IsSorted table) (hfind : find? key table = some value) :
    insert key value table = table := by
  induction table with
  | nil => cases hfind
  | cons first rest ih =>
    obtain ⟨hfirst, hrest⟩ := List.pairwise_cons.1 h
    obtain ⟨other, held⟩ := first
    by_cases heq : other = key
    · rw [find?, if_pos heq] at hfind
      obtain rfl := Option.some.inj hfind
      rw [insert, if_pos heq.symm, heq]
    · rw [find?, if_neg heq] at hfind
      have hlt : other < key := hfirst _ (mem_of_find? hfind)
      rw [insert, if_neg (Ne.symm heq), if_neg (lt_asymm hlt), ih hrest hfind]

/-- Erasing a key that a table does not contain changes nothing. -/
theorem erase_eq_self_of_not_contains (h : contains key table = false) :
    erase key table = table := by
  induction table with
  | nil => rfl
  | cons first rest ih =>
    obtain ⟨other, value⟩ := first
    by_cases heq : other = key
    · simp [contains, find?, heq] at h
    · have hrest : contains key rest = false := by simpa [contains, find?, heq] using h
      rw [show erase key ((other, value) :: rest) = (other, value) :: erase key rest by
        simp [erase, heq], ih hrest]

/-! ### Filling a table from another -/

/-- Values under different keys may be put in in either order. -/
theorem insert_comm {other : String} (h : key ≠ other) (value held : α)
    (table : List (String × α)) :
    insert key value (insert other held table) = insert other held (insert key value table) := by
  wlog hlt : key < other generalizing key other value held
  · exact (this (Ne.symm h) held value (lt_of_le_of_ne (not_lt.1 hlt) (Ne.symm h))).symm
  have hnot : ¬ other < key := lt_asymm hlt
  induction table with
  | nil => simp [insert, h, Ne.symm h, hlt, hnot]
  | cons first rest ih =>
    obtain ⟨k, v⟩ := first
    rcases lt_trichotomy key k with hk | rfl | hk
    · -- the smaller key goes to the front, whatever happens to the greater one
      have hfront : insert key value (insert other held ((k, v) :: rest)) =
          (key, value) :: insert other held ((k, v) :: rest) := by
        rw [insert.eq_2 other]
        split
        next => simp [insert, h, hlt]
        next =>
          split
          next => simp [insert, h, hlt]
          next => simp [insert, hk, hk.ne]
      rw [hfront, insert.eq_2 key, if_neg hk.ne, if_pos hk, insert.eq_2 other held key,
        if_neg (Ne.symm h), if_neg hnot]
    · simp [insert, Ne.symm h, hnot]
    · have hother : k < other := lt_trans hk hlt
      simp [insert, hk.ne', hother.ne', lt_asymm hk, lt_asymm hother, ih]

/-- A table is filled up with one entry after the other. -/
theorem fillFrom_cons (upper : List (String × α)) (entry : String × α)
    (lower : List (String × α)) :
    fillFrom upper (entry :: lower) = fillFrom (fillFrom upper [entry]) lower := rfl

/-- An entry fills a table up only if its key is not there. -/
theorem fillFrom_singleton (upper : List (String × α)) (key : String) (value : α) :
    fillFrom upper [(key, value)] =
      if (find? key upper).isSome then upper else insert key value upper := rfl

/-- In a table that has been filled up its own entries count first. -/
theorem find?_fillFrom (key : String) (upper lower : List (String × α)) :
    find? key (fillFrom upper lower) = (find? key upper).or (find? key lower) := by
  induction lower generalizing upper with
  | nil => simp [fillFrom, find?]
  | cons entry rest ih =>
    obtain ⟨k, v⟩ := entry
    rw [fillFrom_cons, ih, fillFrom_singleton]
    by_cases hk : k = key
    · subst hk
      split
      next hsome =>
        obtain ⟨held, hheld⟩ := Option.isSome_iff_exists.1 hsome
        simp [hheld]
      next hnone => simp [find?, Option.not_isSome_iff_eq_none.1 hnone]
    · split
      next => simp [find?, hk]
      next => simp [find?, hk, find?_insert_of_ne (Ne.symm hk)]

/-- Nothing is filled in where every key has a value. -/
theorem fillFrom_eq_self {upper lower : List (String × α)}
    (h : ∀ entry ∈ lower, (find? entry.1 upper).isSome) : fillFrom upper lower = upper := by
  induction lower with
  | nil => rfl
  | cons entry rest ih =>
    rw [fillFrom_cons, fillFrom_singleton, if_pos (h entry List.mem_cons_self)]
    exact ih fun other hother => h other (List.mem_cons_of_mem _ hother)

/-- There is nothing to be filled up from the table itself. -/
theorem fillFrom_self (table : List (String × α)) : fillFrom table table = table := by
  refine fillFrom_eq_self fun entry hentry => ?_
  obtain ⟨value, hvalue⟩ := exists_find?_of_mem_keys (List.mem_map_of_mem hentry)
  exact Option.isSome_iff_exists.2 ⟨value, hvalue⟩

/-- Two entries with different keys may be filled in either order. -/
theorem fillFrom_singleton_comm {other : String} (h : key ≠ other) (value held : α)
    (table : List (String × α)) :
    fillFrom (fillFrom table [(key, value)]) [(other, held)] =
      fillFrom (fillFrom table [(other, held)]) [(key, value)] := by
  have hother : find? other (fillFrom table [(key, value)]) = find? other table := by
    simp [find?_fillFrom, find?, h]
  have hkey : find? key (fillFrom table [(other, held)]) = find? key table := by
    simp [find?_fillFrom, find?, Ne.symm h]
  rw [fillFrom_singleton (fillFrom _ _) other, hother, fillFrom_singleton (fillFrom _ _) key, hkey,
    fillFrom_singleton, fillFrom_singleton]
  split <;> split
  · rfl
  · rfl
  · rfl
  · exact insert_comm (Ne.symm h) held value table

/-- A key that the lower table gets anew is filled in last. -/
theorem fillFrom_insert {lower : List (String × α)} (h : find? key lower = none) (value : α)
    (upper : List (String × α)) :
    fillFrom upper (insert key value lower) = fillFrom (fillFrom upper lower) [(key, value)] := by
  -- an entry of another key may be filled in before the others as well as behind them
  have hlast : ∀ {lower : List (String × α)}, find? key lower = none → ∀ upper,
      fillFrom upper ((key, value) :: lower) = fillFrom (fillFrom upper lower) [(key, value)] := by
    intro lower
    induction lower with
    | nil => exact fun _ _ => rfl
    | cons entry rest ih =>
      intro h upper
      obtain ⟨k, v⟩ := entry
      rw [find?] at h
      split at h
      next => cases h
      next hk =>
        rw [fillFrom_cons, fillFrom_cons, fillFrom_singleton_comm (Ne.symm hk), ← fillFrom_cons,
          ih h, ← fillFrom_cons]
  induction lower generalizing upper with
  | nil => rfl
  | cons entry rest ih =>
    obtain ⟨k, v⟩ := entry
    have hrest := h
    rw [find?] at hrest
    rw [insert]
    split at hrest
    next => cases hrest
    next hk =>
      rw [if_neg (Ne.symm hk)]
      split
      next => exact hlast h upper
      next => rw [fillFrom_cons, ih hrest, ← fillFrom_cons]

/-- Tables may be filled from each other in any grouping. -/
theorem fillFrom_assoc (upper middle lower : List (String × α)) :
    fillFrom (fillFrom upper middle) lower = fillFrom upper (fillFrom middle lower) := by
  induction lower generalizing middle with
  | nil => rfl
  | cons entry rest ih =>
    obtain ⟨key, value⟩ := entry
    rw [fillFrom_cons middle, ← ih, fillFrom_cons]
    congr 1
    rw [fillFrom_singleton middle]
    split
    next hsome =>
      obtain ⟨held, hheld⟩ := Option.isSome_iff_exists.1 hsome
      refine fillFrom_eq_self fun entry hentry => ?_
      obtain rfl := List.mem_singleton.1 hentry
      simp [find?_fillFrom, hheld]
    next hnone => exact (fillFrom_insert (Option.not_isSome_iff_eq_none.1 hnone) value upper).symm

end PhasedBuild.Keyed
