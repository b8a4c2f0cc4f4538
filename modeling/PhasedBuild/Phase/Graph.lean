import PhasedBuild.Phase

/-!
# The graph of execution points

The three execution points of every phase follow each other. Nested phases lie between the point
before their parent and the point at it, neighbours are chained in the order of their declaration,
and every link adds an edge. A link to other units leads to an aggregate node that no edge enters.

* `PhaseGraph.ofPhases` is the graph of a list of phases.
-/

namespace PhasedBuild

/-- A directed graph. Nodes and edges are in the order of their addition, each of them once. -/
structure PhaseGraph where
  nodes : List Node := []
  edges : List (Node × Node) := []
deriving Repr, Inhabited

namespace PhaseGraph

/-- Adds a node unless it is there. -/
def addNode (g : PhaseGraph) (n : Node) : PhaseGraph :=
  if n ∈ g.nodes then g else { g with nodes := g.nodes ++ [n] }

/-- Adds an edge unless it is there. -/
def addEdge (g : PhaseGraph) (source target : Node) : PhaseGraph :=
  if (source, target) ∈ g.edges then g else { g with edges := g.edges ++ [(source, target)] }

/-- The nodes that must come after a node. -/
def successors (g : PhaseGraph) (n : Node) : List Node :=
  (g.edges.filter (·.1 = n)).map (·.2)

/-- The nodes that must come before a node. -/
def predecessors (g : PhaseGraph) (n : Node) : List Node :=
  (g.edges.filter (·.2 = n)).map (·.1)

/-- The position of a node. -/
def index? (g : PhaseGraph) (n : Node) : Option Nat :=
  g.nodes.findIdx? (· = n)

/-- Adds the edge of a link that a phase declares. -/
def addLink (phase : String) (g : PhaseGraph) (link : Link) : PhaseGraph :=
  let g := g.addNode link.target
  match link.kind with
  | .after => g.addEdge link.target (.before phase)
  | .before => g.addEdge (.after phase) link.target

/-- Adds the three execution points of a phase. -/
def addPoints (g : PhaseGraph) (phase : String) : PhaseGraph :=
  (((g.addNode (.before phase)).addNode (.during phase)).addNode (.after phase)
    |>.addEdge (.before phase) (.during phase))
    |>.addEdge (.during phase) (.after phase)

/-- Puts a phase inside its parent. -/
def nest (g : PhaseGraph) (parent : Option String) (phase : String) : PhaseGraph :=
  match parent with
  | some parent =>
    (g.addEdge (.before parent) (.before phase)).addEdge (.after phase) (.during parent)
  | none => g

/-- Puts a phase behind its neighbour. -/
def chain (g : PhaseGraph) (previous : Option String) (phase : String) : PhaseGraph :=
  match previous with
  | some previous => g.addEdge (.after previous) (.before phase)
  | none => g

mutual

/-- Adds a phase and all phases inside it. -/
def addPhase (parent : Option String) (g : PhaseGraph) : Phase → PhaseGraph
  | ⟨name, phases, links, _⟩ =>
    addPhases (some name) none (links.foldl (addLink name) ((g.addPoints name).nest parent name))
      phases

/-- Adds phases that follow each other behind the phase `previous`. -/
def addPhases (parent previous : Option String) (g : PhaseGraph) : List Phase → PhaseGraph
  | [] => g
  | phase :: rest =>
    addPhases parent (some phase.name) ((addPhase parent g phase).chain previous phase.name) rest

end

/-- The graph of a list of phases. -/
def ofPhases (phases : List Phase) : PhaseGraph :=
  addPhases none none {} phases

end PhaseGraph

end PhasedBuild
