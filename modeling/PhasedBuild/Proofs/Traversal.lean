import PhasedBuild.Proofs.Closure

/-!
# Traversals with a stack

A traversal puts all that an element leads to on a stack without asking whether it is known. It asks
when it takes an element off: one that has been entered before is dropped. So an element may stand
on the stack several times, and the stack may be longer than the universe.

* `Traversal.after_eq_reach`: what a traversal has entered in the end is a transitive closure. It
  ends because each turn takes one element off the stack, and an element that is entered for the
  first time uses up what it leads to.
* `Traversal.ends_with_reach`: it ends, after at most one turn for each element that is on the stack
  in the beginning and for each step that leads from one element to another.
-/

namespace PhasedBuild

/-- The state of a traversal: what has been entered, and what has been put on the stack and not been
taken off, the top first. -/
structure Traversal (α : Type) where
  entered : List α := []
  waiting : List α := []
deriving Repr

namespace Traversal

variable {α : Type} [DecidableEq α] {next : α → List α} {domain seeds : List α} {t : Traversal α}

/-- One turn of a traversal. What the top of the stack leads to is put on the stack, the last of it
on top, unless the top was entered before. -/
def turn (next : α → List α) (t : Traversal α) : Traversal α :=
  match t.waiting with
  | [] => t
  | x :: rest =>
    if x ∈ t.entered then { t with waiting := rest }
    else ⟨x :: t.entered, (next x).reverse ++ rest⟩

/-- A traversal after a number of turns. -/
def after (next : α → List α) : Nat → Traversal α → Traversal α
  | 0, t => t
  | turns + 1, t => after next turns (t.turn next)

/-- A traversal that begins with some elements. -/
def ofSeeds (seeds : List α) : Traversal α :=
  { waiting := seeds.reverse }

/-- A turn drops the top of the stack if it has been entered, and else enters it. -/
theorem turn_of_waiting_eq {x : α} {rest : List α} (h : t.waiting = x :: rest) :
    t.turn next = if x ∈ t.entered then { t with waiting := rest }
      else ⟨x :: t.entered, (next x).reverse ++ rest⟩ := by
  rw [turn, h]

/-- The number of steps that lead on from the elements of a list. -/
def stepsFrom (next : α → List α) (xs : List α) : Nat :=
  (xs.flatMap next).length

/-- The steps that lead on from a list are those from one of its elements and those from the
others. -/
theorem stepsFrom_erase {xs : List α} {x : α} (h : x ∈ xs) :
    stepsFrom next xs = (next x).length + stepsFrom next (xs.erase x) := by
  have hperm : (xs.flatMap next).Perm ((x :: xs.erase x).flatMap next) :=
    (List.perm_cons_erase h).flatMap_right next
  rw [stepsFrom, hperm.length_eq, List.flatMap_cons, List.length_append, stepsFrom]

/-- A traversal with an empty stack has come to its end. -/
theorem after_of_waiting_eq_nil (h : t.waiting = []) (turns : Nat) : t.after next turns = t := by
  induction turns with
  | zero => rfl
  | succ turns ih => rw [after, turn, h, ih]

/-- A traversal enters what has not been entered of its universe in the order of a transitive
closure, and has then so many turns left as elements wait and steps lead on from what is `fresh`. -/
theorem after_eq_reach (hnext : ∀ a, next a ⊆ domain) {turns : Nat} {fresh : List α}
    (hnodup : fresh.Nodup) (hfresh : ∀ x ∈ domain, x ∈ fresh ↔ x ∉ t.entered)
    (hwaiting : t.waiting ⊆ domain)
    (hturns : t.waiting.length + stepsFrom next fresh ≤ turns) :
    (t.after next turns).waiting = [] ∧
      (t.after next turns).entered =
        reach (fun x => (next x).reverse) fresh t.waiting t.entered := by
  induction turns generalizing t fresh with
  | zero =>
    have hnil : t.waiting = [] := List.eq_nil_of_length_eq_zero (by omega)
    rw [after, hnil, reach]
    exact ⟨rfl, rfl⟩
  | succ turns ih =>
    cases hstack : t.waiting with
    | nil =>
      rw [after_of_waiting_eq_nil hstack, reach]
      exact ⟨hstack, rfl⟩
    | cons x rest =>
      rw [hstack, List.length_cons] at hturns
      rw [hstack] at hwaiting
      obtain ⟨hx, hrest⟩ := List.cons_subset.1 hwaiting
      rw [after, turn_of_waiting_eq hstack, reach]
      by_cases hentered : x ∈ t.entered
      · have hold : x ∉ fresh := fun hmem => (hfresh x hx).1 hmem hentered
        rw [if_pos hentered, if_neg hold]
        exact ih hnodup hfresh hrest (by dsimp only; omega)
      · have hnew : x ∈ fresh := (hfresh x hx).2 hentered
        rw [if_neg hentered, if_pos hnew]
        refine ih (hnodup.erase x) (fun y hy => ?_) (fun y hy => ?_) ?_
        · rw [hnodup.mem_erase_iff, hfresh y hy, List.mem_cons, not_or]
        · rcases List.mem_append.1 hy with hnexty | hresty
          · exact hnext x (List.mem_reverse.1 hnexty)
          · exact hrest hresty
        · have hsteps : stepsFrom next fresh = _ := stepsFrom_erase hnew
          rw [List.length_append, List.length_reverse]
          omega

/-- In a universe that `next` does not leave, a traversal ends and has then entered the transitive
closure of the elements that it begins with. -/
theorem ends_with_reach (next : α → List α) (hnodup : domain.Nodup) (hseeds : seeds ⊆ domain)
    (hnext : ∀ a, next a ⊆ domain) (more : Nat) :
    let t := after next (seeds.length + stepsFrom next domain + more) (ofSeeds seeds)
    t.waiting = [] ∧ ∀ x, x ∈ t.entered ↔ x ∈ reach next domain seeds := by
  intro t
  have hback : seeds.reverse ⊆ domain := fun x hx => hseeds (List.mem_reverse.1 hx)
  have hbacknext : ∀ a, (next a).reverse ⊆ domain := fun a x hx => hnext a (List.mem_reverse.1 hx)
  obtain ⟨hwaiting, hentered⟩ : t.waiting = [] ∧
      t.entered = reach (fun x => (next x).reverse) domain seeds.reverse :=
    after_eq_reach hnext hnodup (fun x hx => by simp [ofSeeds, hx]) hback (by simp [ofSeeds])
  refine ⟨hwaiting, fun x => ?_⟩
  rw [hentered, mem_reach_iff_of_subset hnodup hback hbacknext,
    mem_reach_iff_of_subset hnodup hseeds hnext]
  simp only [List.mem_reverse]

end Traversal

end PhasedBuild
