import Mathlib.Data.List.Perm.Subperm
import PhasedBuild.Proofs.Closure

/-!
# Searches with a stack

A search that knows nothing of a universe notes every element that it finds and puts it on a stack,
unless it was found before. In each turn it takes the element on top of the stack and finds all that
this one leads to.

* `Search.Sound` is the invariant of a search: what was found can be reached, and what leads on from
  it was found as well unless it is still waiting.
* `Search.waiting_after_eq_nil`: among finitely many elements the stack gets empty. A turn takes one
  element off it, and every element that comes onto it has been found for the first time.
* `Search.ends_with_reach`: what such a search finds is the transitive closure.
-/

namespace PhasedBuild

open Relation

/-- The state of a search: what has been found, and what of it has still to be followed, the top of
the stack first. -/
structure Search (α : Type) where
  found : List α := []
  waiting : List α := []
deriving Repr

namespace Search

variable {α : Type} {next : α → List α} {domain seeds xs : List α} {s : Search α} {x : α}

/-! ### The invariant -/

/-- What holds of a search from the seeds on. -/
structure Sound (next : α → List α) (seeds : List α) (s : Search α) : Prop where
  nodup : s.found.Nodup
  waiting_subset : s.waiting ⊆ s.found
  seeds_subset : seeds ⊆ s.found
  reached : ∀ x ∈ s.found, ∃ t ∈ seeds, ReflTransGen (fun a b => b ∈ next a) t x
  followed : ∀ x ∈ s.found, x ∈ s.waiting ∨ next x ⊆ s.found

namespace Sound

/-- All that the seeds lead to stays in a list that `next` does not leave. -/
theorem found_subset (h : Sound next seeds s) (hseeds : seeds ⊆ domain)
    (hnext : ∀ a, next a ⊆ domain) : s.found ⊆ domain := by
  intro x hx
  obtain ⟨t, ht, hpath⟩ := h.reached x hx
  rcases hpath.cases_tail with rfl | ⟨_, -, hlast⟩
  · exact hseeds ht
  · exact hnext _ hlast

/-- A search that stays among the elements of a list finds no more than there are. -/
theorem length_found_le (h : Sound next seeds s) (hseeds : seeds ⊆ domain)
    (hnext : ∀ a, next a ⊆ domain) : s.found.length ≤ domain.length :=
  (List.subperm_of_subset h.nodup (h.found_subset hseeds hnext)).length_le

/-- When nothing waits, everything to which a path leads has been found. -/
theorem mem_found_iff (h : Sound next seeds s) (hwaiting : s.waiting = []) :
    x ∈ s.found ↔ ∃ t ∈ seeds, ReflTransGen (fun a b => b ∈ next a) t x := by
  refine ⟨h.reached x, ?_⟩
  rintro ⟨t, ht, hpath⟩
  induction hpath with
  | refl => exact h.seeds_subset ht
  | tail _ hstep ih =>
    have hfollowed := (h.followed _ ih).resolve_left (by simp [hwaiting])
    exact hfollowed hstep

end Sound

/-! ### Turns -/

variable [DecidableEq α]

/-- An element is noted and put on the stack unless it was found before. -/
def find (s : Search α) (x : α) : Search α :=
  if x ∈ s.found then s else ⟨x :: s.found, x :: s.waiting⟩

/-- Elements are found one after the other. -/
def findAll (s : Search α) (xs : List α) : Search α :=
  xs.foldl find s

/-- One turn of a search: all that the top of the stack leads to is found. -/
def turn (next : α → List α) (s : Search α) : Search α :=
  match s.waiting with
  | [] => s
  | x :: rest => findAll { s with waiting := rest } (next x)

/-- A search after a number of turns. -/
def after (next : α → List α) : Nat → Search α → Search α
  | 0, s => s
  | turns + 1, s => after next turns (s.turn next)

/-! ### What is found in one turn -/

/-- Elements are found one after the other, from the first one on. -/
theorem findAll_cons (s : Search α) (x : α) (xs : List α) :
    s.findAll (x :: xs) = (s.find x).findAll xs := rfl

/-- Finding elements adds just these to what has been found. -/
theorem mem_found_findAll : x ∈ (s.findAll xs).found ↔ x ∈ s.found ∨ x ∈ xs := by
  induction xs generalizing s with
  | nil => simp [findAll]
  | cons y ys ih =>
    rw [findAll_cons, ih, find]
    split
    next hy =>
      rw [List.mem_cons, ← or_assoc]
      refine or_congr_left ⟨.inl, ?_⟩
      rintro (h | rfl)
      · exact h
      · exact hy
    next => simp [or_assoc, or_left_comm]

/-- What waits afterwards did so before, or was found now. -/
theorem mem_waiting_findAll : x ∈ (s.findAll xs).waiting ↔
    x ∈ s.waiting ∨ x ∈ xs ∧ x ∉ s.found := by
  induction xs generalizing s with
  | nil => simp [findAll]
  | cons y ys ih =>
    rw [findAll_cons, ih, find]
    split
    next hy =>
      by_cases hxy : x = y
      · subst hxy
        simp [hy]
      · simp [hxy]
    next hy =>
      by_cases hxy : x = y
      · subst hxy
        simp [hy]
      · simp [hxy]

/-- Nothing is found twice. -/
theorem nodup_found_findAll (h : s.found.Nodup) (xs : List α) : (s.findAll xs).found.Nodup := by
  induction xs generalizing s with
  | nil => exact h
  | cons y ys ih =>
    rw [findAll_cons]
    refine ih ?_
    unfold find
    split
    next => exact h
    next hy => exact List.nodup_cons.2 ⟨hy, h⟩

/-- Each element that is found now is put on the stack. -/
theorem length_findAll (s : Search α) (xs : List α) :
    (s.findAll xs).waiting.length + s.found.length =
      s.waiting.length + (s.findAll xs).found.length := by
  induction xs generalizing s with
  | nil => rfl
  | cons y ys ih =>
    have hys := ih (s := s.find y)
    rw [findAll_cons]
    have hy : (s.find y).waiting.length + s.found.length =
        s.waiting.length + (s.find y).found.length := by
      unfold find
      split
      next => rfl
      next =>
        rw [List.length_cons, List.length_cons]
        omega
    omega

/-! ### The invariant through a search -/

namespace Sound

/-- A search that has found its seeds is sound. -/
theorem of_seeds (next : α → List α) (seeds : List α) : Sound next seeds (findAll {} seeds) where
  nodup := nodup_found_findAll (s := {}) .nil seeds
  waiting_subset x hx := by simpa [mem_waiting_findAll, mem_found_findAll] using hx
  seeds_subset x hx := mem_found_findAll.2 (.inr hx)
  reached x hx := ⟨x, by simpa [mem_found_findAll] using hx, .refl⟩
  followed x hx := .inl (by simpa [mem_waiting_findAll, mem_found_findAll] using hx)

/-- Every turn of a search keeps it sound. -/
theorem turn (h : Sound next seeds s) : Sound next seeds (s.turn next) := by
  unfold Search.turn
  split
  next => exact h
  next top rest hwaiting =>
    have htop : top ∈ s.found := h.waiting_subset (hwaiting ▸ List.mem_cons_self)
    refine ⟨nodup_found_findAll (s := { s with waiting := rest }) h.nodup _, fun x hx => ?_,
      fun x hx => ?_, fun x hx => ?_, fun x hx => ?_⟩
    · rcases mem_waiting_findAll.1 hx with hrest | ⟨hnext, -⟩
      · exact mem_found_findAll.2
          (.inl (h.waiting_subset (hwaiting ▸ List.mem_cons_of_mem top hrest)))
      · exact mem_found_findAll.2 (.inr hnext)
    · exact mem_found_findAll.2 (.inl (h.seeds_subset hx))
    · rcases mem_found_findAll.1 hx with hfound | hnext
      · exact h.reached x hfound
      · obtain ⟨t, ht, hpath⟩ := h.reached top htop
        exact ⟨t, ht, hpath.tail hnext⟩
    · by_cases hfound : x ∈ s.found
      · by_cases hx : x = top
        · exact .inr fun y hy => mem_found_findAll.2 (.inr (hx ▸ hy))
        · rcases h.followed x hfound with hmem | hsub
          · rw [hwaiting] at hmem
            exact .inl (mem_waiting_findAll.2 (.inl ((List.mem_cons.1 hmem).resolve_left hx)))
          · exact .inr fun y hy => mem_found_findAll.2 (.inl (hsub hy))
      · -- what is found for the first time now waits
        have hnext := (mem_found_findAll.1 hx).resolve_left hfound
        exact .inl (mem_waiting_findAll.2 (.inr ⟨hnext, hfound⟩))

/-- A search is sound after any number of turns. -/
theorem after (h : Sound next seeds s) (turns : Nat) : Sound next seeds (s.after next turns) := by
  induction turns generalizing s with
  | zero => exact h
  | succ turns ih => exact ih h.turn

end Sound

/-! ### The end -/

/-- A search with nothing left to follow has come to its end. -/
theorem after_of_waiting_eq_nil (h : s.waiting = []) (turns : Nat) : s.after next turns = s := by
  induction turns with
  | zero => rfl
  | succ turns ih => rw [after, turn, h, ih]

/-- A search has so many turns left as elements wait or have not been found. -/
theorem waiting_after_eq_nil (h : Sound next seeds s) (hseeds : seeds ⊆ domain)
    (hnext : ∀ a, next a ⊆ domain) {turns : Nat}
    (hturns : domain.length + s.waiting.length ≤ turns + s.found.length) :
    (s.after next turns).waiting = [] := by
  induction turns generalizing s with
  | zero =>
    have hle := h.length_found_le hseeds hnext
    exact List.eq_nil_of_length_eq_zero (by omega : s.waiting.length = 0)
  | succ turns ih =>
    cases hwaiting : s.waiting with
    | nil => rw [after_of_waiting_eq_nil hwaiting, hwaiting]
    | cons top rest =>
      refine ih h.turn ?_
      have hlength := length_findAll { s with waiting := rest } (next top)
      have hturn : s.turn next = findAll { s with waiting := rest } (next top) := by
        rw [turn, hwaiting]
      rw [hwaiting, List.length_cons] at hturns
      rw [hturn]
      dsimp only at hlength
      omega

/-- Among finitely many elements a search ends, after at most one turn for each of them, and has
then found the transitive closure of the elements that it starts from. -/
theorem ends_with_reach (next : α → List α) (hnodup : domain.Nodup) (hseeds : seeds ⊆ domain)
    (hnext : ∀ a, next a ⊆ domain) (more : Nat) :
    let s := after next (domain.length + more) (findAll {} seeds)
    s.waiting = [] ∧ ∀ x, x ∈ s.found ↔ x ∈ reach next domain seeds := by
  intro s
  have hsound : Sound next seeds s := (Sound.of_seeds next seeds).after _
  have hwaiting : s.waiting = [] := by
    refine waiting_after_eq_nil (Sound.of_seeds next seeds) hseeds hnext ?_
    have hlength := length_findAll ({} : Search α) seeds
    simp only [List.length_nil, Nat.add_zero, Nat.zero_add] at hlength
    omega
  refine ⟨hwaiting, fun x => ?_⟩
  rw [hsound.mem_found_iff hwaiting, mem_reach_iff_of_subset hnodup hseeds hnext]

end Search

end PhasedBuild
