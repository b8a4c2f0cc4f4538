import Mathlib.Data.List.Perm.Basic
import Mathlib.Order.Lattice

/-!
# Order in lists

* `idxOf_lt_idxOf_of_sublist`: of two elements of a list without repetitions the one that comes
  first has the smaller index.

A list is a stable sorting of another one if it has the same elements, in the order of their keys,
and those of one key as in the other list.

* `IsStableSort.unique`: a list has one stable sorting only.
* `isStableSort_mergeSort`: merge sort is stable.
* `flatMap_filter_range`: a list that is sorted by a number consists of its parts for each number.
-/

namespace PhasedBuild

/-! ### One element before another -/

section pairs

variable {α : Type} {a b : α} {l : List α}

/-- An element of the front comes before one of the back. -/
theorem pair_sublist_append {front back : List α} (ha : a ∈ front) (hb : b ∈ back) :
    [a, b].Sublist (front ++ back) :=
  (List.singleton_sublist.2 ha).append (List.singleton_sublist.2 hb)

/-- Without repetitions, the second of two elements in a row is not in front of the first one. -/
theorem exists_append_of_pair_sublist (hnodup : l.Nodup) (h : [a, b].Sublist l) :
    ∃ front back, l = front ++ a :: back ∧ b ∉ front := by
  obtain ⟨first, last, rfl, ha, hb⟩ := List.cons_sublist_iff.1 h
  obtain ⟨front, back, rfl⟩ := List.append_of_mem ha
  refine ⟨front, back ++ last, by simp, fun hfront => ?_⟩
  exact (List.nodup_append.1 hnodup).2.2 b (List.mem_append_left _ hfront) b
    (List.singleton_sublist.1 hb) rfl

/-- Without repetitions, the first of two elements in a row has the smaller index. -/
theorem idxOf_lt_idxOf_of_sublist [DecidableEq α] (hnodup : l.Nodup) (h : [a, b].Sublist l) :
    l.idxOf a < l.idxOf b := by
  induction l with
  | nil => cases h
  | cons first rest ih =>
    obtain ⟨hfirst, hrest⟩ := List.nodup_cons.1 hnodup
    have hne : ∀ other ∈ rest, first ≠ other := fun other hother he => hfirst (he ▸ hother)
    cases h with
    | cons _ h =>
      have ha : a ∈ rest := h.subset List.mem_cons_self
      have hb : b ∈ rest := h.subset (List.mem_cons_of_mem _ List.mem_cons_self)
      rw [List.idxOf_cons_ne _ (hne a ha), List.idxOf_cons_ne _ (hne b hb)]
      exact Nat.succ_lt_succ (ih hrest h)
    | cons_cons _ h =>
      have hb : b ∈ rest := List.singleton_sublist.1 h
      rw [List.idxOf_cons_self, List.idxOf_cons_ne _ (hne b hb)]
      exact Nat.succ_pos _

end pairs

/-! ### Stable sorting -/

variable {α κ : Type} [LinearOrder κ]

/-- The elements of a list in the order of their keys; those of one key stay in their order. -/
structure IsStableSort (key : α → κ) (original sorted : List α) : Prop where
  /-- Nothing is lost and nothing is there twice. -/
  perm : sorted.Perm original
  pairwise : sorted.Pairwise fun a b => key a ≤ key b
  filter_eq : ∀ k, sorted.filter (fun a => key a = k) = original.filter fun a => key a = k

variable {key : α → κ} {original sorted : List α}

/-- Sorted lists are equal if they have the same elements of each key in the same order. -/
theorem eq_of_pairwise_of_filter_eq {l l' : List α} (h : l.Pairwise fun a b => key a ≤ key b)
    (h' : l'.Pairwise fun a b => key a ≤ key b)
    (hfilter : ∀ k, l.filter (fun a => key a = k) = l'.filter fun a => key a = k) : l = l' := by
  -- the first elements have the least key, which is therefore the same
  have hle : ∀ {a b : α} {t t' : List α}, (∀ c ∈ t', key b ≤ key c) →
      (∀ k, (a :: t).filter (fun c => key c = k) = (b :: t').filter fun c => key c = k) →
        key b ≤ key a := by
    intro a b t t' hb hk
    have hmem : a ∈ (b :: t').filter fun c => key c = key a := by
      rw [← hk]
      simp
    rcases List.mem_cons.1 (List.mem_of_mem_filter hmem) with rfl | hmem
    · exact le_refl _
    · exact hb a hmem
  induction l generalizing l' with
  | nil =>
    cases l' with
    | nil => rfl
    | cons b t' => simpa using hfilter (key b)
  | cons a t ih =>
    cases l' with
    | nil => simpa using hfilter (key a)
    | cons b t' =>
      obtain ⟨ha, ht⟩ := List.pairwise_cons.1 h
      obtain ⟨hb, ht'⟩ := List.pairwise_cons.1 h'
      have hkey : key a = key b :=
        le_antisymm (hle ha fun k => (hfilter k).symm) (hle hb hfilter)
      have hhead := hfilter (key b)
      simp only [hkey, List.filter_cons_of_pos, decide_true] at hhead
      obtain ⟨rfl, -⟩ := List.cons.inj hhead
      refine congrArg (a :: ·) (ih ht ht' fun k => ?_)
      have hk := hfilter k
      by_cases hak : key a = k
      · simpa [hak] using hk
      · simpa [hak] using hk

namespace IsStableSort

/-- There is one way only to sort elements by their keys and keep those of one key in their
order. -/
theorem unique {other : List α} (h : IsStableSort key original sorted)
    (hother : IsStableSort key original other) : sorted = other :=
  eq_of_pairwise_of_filter_eq h.pairwise hother.pairwise fun k =>
    (h.filter_eq k).trans (hother.filter_eq k).symm

/-- What is left of a sorted list is sorted. -/
theorem filter (h : IsStableSort key original sorted) (p : α → Bool) :
    IsStableSort key (original.filter p) (sorted.filter p) where
  perm := h.perm.filter p
  pairwise := h.pairwise.filter p
  filter_eq k := by
    rw [List.filter_comm, h.filter_eq, List.filter_comm]

end IsStableSort

/-- Sorting by merging is such a way. -/
theorem isStableSort_mergeSort {le : α → α → Bool} (hle : ∀ a b, le a b = true ↔ key a ≤ key b)
    (l : List α) : IsStableSort key l (l.mergeSort le) := by
  have htrans : ∀ a b c, le a b = true → le b c = true → le a c = true := by
    intro a b c hab hbc
    exact (hle a c).2 (((hle a b).1 hab).trans ((hle b c).1 hbc))
  have htotal : ∀ a b, (le a b || le b a) = true := by
    intro a b
    rw [Bool.or_eq_true, hle, hle]
    exact le_total _ _
  refine ⟨List.mergeSort_perm _ _, ?_, fun k => ?_⟩
  · exact (List.pairwise_mergeSort htrans htotal l).imp fun h => (hle _ _).1 h
  · -- the elements of one key are in order already, so they stay as they are
    have hpairwise : (l.filter fun a => key a = k).Pairwise fun a b => le a b = true := by
      refine List.pairwise_of_forall_mem_list fun a ha b hb => (hle a b).2 ?_
      rw [of_decide_eq_true (List.mem_filter.1 ha).2, of_decide_eq_true (List.mem_filter.1 hb).2]
    have hsub := (List.sublist_mergeSort htrans htotal hpairwise List.filter_sublist).filter
      fun a => key a = k
    rw [List.filter_filter] at hsub
    simp only [Bool.and_self] at hsub
    exact (hsub.eq_of_length ((List.mergeSort_perm l le).filter _).length_eq.symm).symm

/-! ### Parts of a sorted list -/

section parts

variable {f : α → ℕ} {l : List α} {n : ℕ}

/-- In a sorted list the elements below the greatest number come first. -/
theorem filter_lt_append_filter_eq (h : l.Pairwise fun a b => f a ≤ f b) (hle : ∀ a ∈ l, f a ≤ n) :
    l.filter (fun a => f a < n) ++ l.filter (fun a => f a = n) = l := by
  induction l with
  | nil => rfl
  | cons a t ih =>
    obtain ⟨ha, ht⟩ := List.pairwise_cons.1 h
    obtain ⟨hae, hte⟩ := List.forall_mem_cons.1 hle
    rcases hae.lt_or_eq with hlt | heq
    · simpa [hlt, hlt.ne] using ih ht hte
    · have hall : ∀ b ∈ t, f b = n := fun b hb => le_antisymm (hte b hb) (heq ▸ ha b hb)
      have hnone : t.filter (fun b => f b < n) = [] :=
        List.filter_eq_nil_iff.2 fun b hb => by simp [hall b hb]
      have hsome : t.filter (fun b => f b = n) = t :=
        List.filter_eq_self.2 fun b hb => by simp [hall b hb]
      simp [heq, hnone, hsome]

/-- A list that is sorted by a number consists of its parts for each number. -/
theorem flatMap_filter_range (h : l.Pairwise fun a b => f a ≤ f b) (hlt : ∀ a ∈ l, f a < n) :
    (List.range n).flatMap (fun i => l.filter fun a => f a = i) = l := by
  induction n generalizing l with
  | zero =>
    cases l with
    | nil => rfl
    | cons a t => exact absurd (hlt a List.mem_cons_self) (Nat.not_lt_zero _)
  | succ n ih =>
    have hbelow := ih (h.filter fun a => f a < n) fun a ha => by
      simpa using (List.mem_filter.1 ha).2
    have hparts : (List.range n).flatMap (fun i => l.filter fun a => f a = i) =
        l.filter fun a => f a < n := by
      rw [← hbelow]
      refine List.flatMap_congr fun i hi => ?_
      have hin := List.mem_range.1 hi
      rw [List.filter_filter]
      exact List.filter_congr fun a _ => by by_cases ha : f a = i <;> simp [ha, hin]
    rw [List.range_succ, List.flatMap_append, hparts]
    simpa using filter_lt_append_filter_eq h fun a ha => Nat.le_of_lt_succ (hlt a ha)

end parts

end PhasedBuild
