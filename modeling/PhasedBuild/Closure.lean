/-!
# Transitive closure

`reach next fresh todo` follows `next` from the elements of `todo`, entering only elements of
`fresh` and each of them once; the result is what was entered. It ends because `fresh` shrinks with
every element that is entered.
-/

namespace PhasedBuild

variable {α : Type} [DecidableEq α]

/-- The elements of `fresh` that are reached from `todo`, the last reached one first. -/
def reach (next : α → List α) (fresh todo : List α) (reached : List α := []) : List α :=
  match todo with
  | [] => reached
  | x :: rest =>
    if x ∈ fresh then reach next (fresh.erase x) (next x ++ rest) (x :: reached)
    else reach next fresh rest reached
termination_by (fresh.length, todo.length)
decreasing_by
  · have := List.length_pos_of_mem ‹x ∈ fresh›
    rw [List.length_erase_of_mem ‹x ∈ fresh›]
    left
    omega
  · exact Prod.Lex.right _ (Nat.lt_succ_self _)

end PhasedBuild
