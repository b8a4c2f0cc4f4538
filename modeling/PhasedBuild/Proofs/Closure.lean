import Mathlib.Logic.Relation
import PhasedBuild.Closure

/-!
# What a transitive closure contains

`reach next fresh todo` holds exactly the elements to which a path leads that begins in `todo`,
follows `next`, and stays in `fresh` (`mem_reach_iff`).

Soundness (`exists_of_mem_reach`) is read off the recursion. For completeness the invariant is that
the successors of every entered element have been entered as well, wait in `todo`, or lie outside
the universe; when `todo` is empty the result is closed (`mem_of_mem_next_of_mem_reach`).
-/

namespace PhasedBuild

open Relation

variable {α : Type} {next : α → List α}

/-- One step of a path that stays among the elements of a list. -/
def StepWithin (next : α → List α) (domain : List α) (a b : α) : Prop :=
  b ∈ next a ∧ b ∈ domain

/-- A step that stays within a list stays within any larger one. -/
theorem StepWithin.mono {domain larger : List α} (h : domain ⊆ larger) {a b : α}
    (hab : StepWithin next domain a b) : StepWithin next larger a b :=
  ⟨hab.1, h hab.2⟩

variable [DecidableEq α]

/-- What had been entered before stays entered. -/
theorem subset_reach (fresh todo reached : List α) : reached ⊆ reach next fresh todo reached := by
  fun_induction reach next fresh todo reached with
  | case1 => exact List.Subset.refl _
  | case2 fresh reached x rest hx ih => exact fun y hy => ih (List.mem_cons_of_mem x hy)
  | case3 fresh reached x rest hx ih => exact ih

/-- Soundness: a path leads to whatever is entered. -/
theorem exists_of_mem_reach {fresh todo reached : List α} {x : α}
    (h : x ∈ reach next fresh todo reached) :
    x ∈ reached ∨ ∃ t ∈ todo, t ∈ fresh ∧ ReflTransGen (StepWithin next fresh) t x := by
  fun_induction reach next fresh todo reached with
  | case1 => exact Or.inl h
  | case2 fresh reached y rest hy ih =>
    rcases ih h with hx | ⟨t, ht, htfresh, hpath⟩
    · rcases List.mem_cons.1 hx with rfl | hx
      · exact Or.inr ⟨x, List.mem_cons_self, hy, .refl⟩
      · exact Or.inl hx
    · have hsub : fresh.erase y ⊆ fresh := List.erase_subset
      have hpath' := ReflTransGen.mono (fun _ _ => StepWithin.mono hsub) _ _ hpath
      rcases List.mem_append.1 ht with hnext | hrest
      · exact Or.inr ⟨y, List.mem_cons_self, hy, .head ⟨hnext, hsub htfresh⟩ hpath'⟩
      · exact Or.inr ⟨t, List.mem_cons_of_mem y hrest, hsub htfresh, hpath'⟩
  | case3 fresh reached y rest hy ih =>
    rcases ih h with hx | ⟨t, ht, htfresh, hpath⟩
    · exact Or.inl hx
    · exact Or.inr ⟨t, List.mem_cons_of_mem y ht, htfresh, hpath⟩

/-- Every element of `todo` that may be entered is entered. -/
theorem mem_reach_of_mem_todo {fresh todo : List α} (reached : List α) {t : α} (ht : t ∈ todo)
    (hfresh : t ∈ fresh) : t ∈ reach next fresh todo reached := by
  fun_induction reach next fresh todo reached with
  | case1 => cases ht
  | case2 fresh reached x rest hx ih =>
    by_cases htx : t = x
    · subst htx
      exact subset_reach _ _ _ List.mem_cons_self
    · have hrest : t ∈ rest := (List.mem_cons.1 ht).resolve_left htx
      exact ih (List.mem_append_right _ hrest) ((List.mem_erase_of_ne htx).2 hfresh)
  | case3 fresh reached x rest hx ih =>
    rcases List.mem_cons.1 ht with rfl | ht
    · exact absurd hfresh hx
    · exact ih ht hfresh

/-- Completeness: what is entered is closed under `next`. -/
theorem mem_of_mem_next_of_mem_reach {fresh todo reached : List α} (hnodup : fresh.Nodup)
    (hinv : ∀ a ∈ reached, ∀ b ∈ next a, b ∈ fresh → b ∈ todo) {a b : α}
    (ha : a ∈ reach next fresh todo reached) (hb : b ∈ next a) (hfresh : b ∈ fresh) :
    b ∈ reach next fresh todo reached := by
  fun_induction reach next fresh todo reached with
  | case1 fresh reached => exact absurd (hinv a ha b hb hfresh) List.not_mem_nil
  | case2 fresh reached x rest hx ih =>
    by_cases hbx : b = x
    · subst hbx
      exact subset_reach _ _ _ List.mem_cons_self
    · refine ih (hnodup.erase x) ?_ ha ((List.mem_erase_of_ne hbx).2 hfresh)
      intro c hc d hd hdfresh
      obtain ⟨hdx, hdfresh⟩ := hnodup.mem_erase_iff.1 hdfresh
      rcases List.mem_cons.1 hc with rfl | hc
      · exact List.mem_append_left _ hd
      · have hmem := hinv c hc d hd hdfresh
        exact List.mem_append_right _ ((List.mem_cons.1 hmem).resolve_left hdx)
  | case3 fresh reached x rest hx ih =>
    refine ih hnodup ?_ ha hfresh
    intro c hc d hd hdfresh
    rcases List.mem_cons.1 (hinv c hc d hd hdfresh) with rfl | hrest
    · exact absurd hdfresh hx
    · exact hrest

/-- An element is reached if and only if a path leads to it. -/
theorem mem_reach_iff {fresh todo : List α} (hnodup : fresh.Nodup) {x : α} :
    x ∈ reach next fresh todo ↔
      ∃ t ∈ todo, t ∈ fresh ∧ ReflTransGen (StepWithin next fresh) t x := by
  constructor
  · intro h
    exact (exists_of_mem_reach h).resolve_left List.not_mem_nil
  · rintro ⟨t, ht, hfresh, hpath⟩
    induction hpath with
    | refl => exact mem_reach_of_mem_todo [] ht hfresh
    | tail _ hstep ih =>
      refine mem_of_mem_next_of_mem_reach hnodup ?_ ih hstep.1 hstep.2
      exact fun a ha => absurd ha List.not_mem_nil

/-- In a universe that `next` does not leave, any path will do. -/
theorem mem_reach_iff_of_subset {domain todo : List α} (hnodup : domain.Nodup)
    (htodo : todo ⊆ domain) (hnext : ∀ a, next a ⊆ domain) {x : α} :
    x ∈ reach next domain todo ↔ ∃ t ∈ todo, ReflTransGen (fun a b => b ∈ next a) t x := by
  have hwithin : StepWithin next domain = fun a b => b ∈ next a := by
    funext a b
    exact propext ⟨fun h => h.1, fun h => ⟨h, hnext a h⟩⟩
  rw [mem_reach_iff hnodup, hwithin]
  exact exists_congr fun t => and_congr_right fun ht => and_iff_right (htodo ht)

end PhasedBuild
