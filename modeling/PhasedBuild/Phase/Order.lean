import PhasedBuild.Error.Record
import PhasedBuild.Phase.Graph

/-!
# The order of execution points

A depth-first search visits the graph of execution points. A node is finished when all that must
come after it is finished, so the nodes in the opposite order of their finishing respect every edge.
The search starts from the last node and takes successors from the last one on; therefore nodes that
nothing constrains keep the order of their declaration.

* `PhaseGraph.executionOrder` is that order, or the edge that closes a cycle.
* `PhaseOrder.ofPhases` is the order of the execution points of a list of phases.
-/

namespace PhasedBuild

namespace PhaseGraph

/-- A path of the search: nodes that are not finished, the innermost first, each with the successors
that it has still to visit. -/
abbrev Trail := List (Node × List Node)

/-- How much is left to visit along a trail. -/
def Trail.pending (trail : Trail) : Nat :=
  trail.foldr (fun frame rest => frame.2.length + 1 + rest) 0

/-- The successors of a node in the order of their visits. -/
def visits (g : PhaseGraph) (n : Node) : List Node :=
  (g.successors n).reverse

/-- Visits all nodes. `fresh` are the nodes that have not been reached, `trail` leads to the node
being visited, and `finished` is the order of the finished nodes. -/
def search (g : PhaseGraph) (fresh : List Node) (trail : Trail) (finished : List Node) :
    Except Fault (List Node) :=
  match trail with
  | [] =>
    match _h : fresh.getLast? with
    | none => .ok finished
    | some root => search g (fresh.erase root) [(root, g.visits root)] finished
  | (node, []) :: rest => search g fresh rest (node :: finished)
  | (node, next :: more) :: rest =>
    if next ∈ fresh then
      search g (fresh.erase next) ((next, g.visits next) :: (node, more) :: rest) finished
    else if next ∈ node :: rest.map (·.1) then .error (.phaseCycle node next)
    else search g fresh ((node, more) :: rest) finished
termination_by (fresh.length, trail.pending)
decreasing_by
  · have := List.mem_of_getLast? _h
    have := List.length_pos_of_mem this
    rw [List.length_erase_of_mem (List.mem_of_getLast? _h)]
    left
    omega
  · right
    simp [Trail.pending]
  · have := List.length_pos_of_mem ‹next ∈ fresh›
    rw [List.length_erase_of_mem ‹next ∈ fresh›]
    left
    omega
  · right
    simp [Trail.pending]

/-- All nodes in an order that respects every edge. -/
def executionOrder (g : PhaseGraph) : Except Fault (List Node) :=
  g.search g.nodes [] []

end PhaseGraph

/-- The order of the execution points of a list of phases. -/
structure PhaseOrder where
  points : List PhaseRef := []
deriving Repr, Inhabited, DecidableEq

namespace PhaseOrder

/-- The names of the phases in the order of the points at them. -/
def phases (order : PhaseOrder) : List String :=
  order.points.filterMap fun point =>
    match point.side with
    | .during => some point.phase
    | _ => none

/-- The position of an execution point. -/
def position? (order : PhaseOrder) (point : PhaseRef) : Option Nat :=
  order.points.findIdx? (· = point)

/-- A point stands at its position. -/
theorem getElem?_of_position? {order : PhaseOrder} {point : PhaseRef} {i : Nat}
    (h : order.position? point = some i) : order.points[i]? = some point := by
  obtain ⟨hi, hpoint, -⟩ := List.findIdx?_eq_some_iff_getElem.1 h
  rw [List.getElem?_eq_getElem hi, of_decide_eq_true hpoint]

/-- Whether a phase has a point in the order. -/
def containsPhase (order : PhaseOrder) (phase : String) : Bool :=
  (order.position? ⟨.during, phase⟩).isSome

/-- The order of the execution points of a list of phases. Aggregates have no place in it. -/
def ofPhases (phases : List Phase) : Except Fault PhaseOrder :=
  (PhaseGraph.ofPhases phases).executionOrder.map fun nodes => ⟨nodes.filterMap Node.point?⟩

end PhaseOrder

end PhasedBuild
