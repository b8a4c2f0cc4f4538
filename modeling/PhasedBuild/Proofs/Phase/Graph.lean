import PhasedBuild.Proofs.Phase.Search
import PhasedBuild.Proofs.Phase.Walk

/-!
# Which edges the graph of phases has

* `PhaseGraph.leads_ofPhases_iff`: the edges are those of the declaration, which stay among the
  points of declared phases, and one for each link.
* `PhaseGraph.mem_nodes_ofPhases_iff`: the nodes are the points of declared phases and the targets
  of links.
-/

namespace PhasedBuild

/-- The edge of a link that a phase declares. -/
def Link.edge (phase : String) (link : Link) : Node × Node :=
  match link.kind with
  | .after => (link.target, .before phase)
  | .before => (.after phase, link.target)

namespace PhaseGraph

variable {g : PhaseGraph} {a b : Node}

/-! ### One addition -/

/-- An edge that is added leads from its source to its target. -/
@[simp] theorem leads_addEdge {source target : Node} :
    (g.addEdge source target).Leads a b ↔ g.Leads a b ∨ a = source ∧ b = target := by
  unfold Leads addEdge
  split
  next h =>
    refine ⟨.inl, ?_⟩
    rintro (hmem | ⟨rfl, rfl⟩)
    · exact hmem
    · exact h
  next => simp

/-- Adding a node adds no edge. -/
@[simp] theorem leads_addNode {node : Node} : (g.addNode node).Leads a b ↔ g.Leads a b := by
  unfold Leads addNode
  split <;> rfl

/-- Adding an edge adds no node. -/
@[simp] theorem nodes_addEdge (source target : Node) :
    (g.addEdge source target).nodes = g.nodes := by
  unfold addEdge
  split <;> rfl

/-- Adding a node adds just that. -/
@[simp] theorem mem_nodes_addNode {node : Node} :
    a ∈ (g.addNode node).nodes ↔ a ∈ g.nodes ∨ a = node := by
  unfold addNode
  split
  next h => exact ⟨.inl, fun hmem => hmem.elim id (· ▸ h)⟩
  next => simp

/-- A node that is there already is not added again. -/
theorem nodup_addNode (h : g.nodes.Nodup) (node : Node) : (g.addNode node).nodes.Nodup := by
  unfold addNode
  split
  next => exact h
  next hnew => exact List.nodup_append.2 ⟨h, List.nodup_singleton _, by
      rintro other hother _ hmem rfl
      exact hnew (List.mem_singleton.1 hmem ▸ hother)⟩

/-- A link adds its target and its edge. -/
theorem addLink_eq (phase : String) (link : Link) :
    g.addLink phase link =
      (g.addNode link.target).addEdge (link.edge phase).1 (link.edge phase).2 := by
  unfold addLink Link.edge
  cases link.kind <;> rfl

/-- Links add their edges. -/
theorem leads_foldl_addLink {phase : String} {links : List Link} :
    (links.foldl (addLink phase) g).Leads a b ↔
      g.Leads a b ∨ ∃ link ∈ links, link.edge phase = (a, b) := by
  induction links generalizing g with
  | nil => simp
  | cons link rest ih =>
    rw [List.foldl_cons, ih, addLink_eq]
    simp [or_assoc, Prod.ext_iff, eq_comm]

/-- Links add their targets. -/
theorem mem_nodes_foldl_addLink {phase : String} {links : List Link} :
    a ∈ (links.foldl (addLink phase) g).nodes ↔
      a ∈ g.nodes ∨ ∃ link ∈ links, link.target = a := by
  induction links generalizing g with
  | nil => simp
  | cons link rest ih =>
    rw [List.foldl_cons, ih, addLink_eq]
    simp [or_assoc, eq_comm]

/-- Links add no node twice. -/
theorem nodup_foldl_addLink (h : g.nodes.Nodup) (phase : String) (links : List Link) :
    (links.foldl (addLink phase) g).nodes.Nodup := by
  induction links generalizing g with
  | nil => exact h
  | cons link rest ih =>
    refine ih ?_
    rw [addLink_eq, nodes_addEdge]
    exact nodup_addNode h _

/-- Nesting a phase puts it between the points of its parent. -/
theorem leads_nest {parent : Option String} {name : String} :
    (g.nest parent name).Leads a b ↔
      g.Leads a b ∨ ∃ pair ∈ Phase.within parent name, a = .point pair.1 ∧ b = .point pair.2 := by
  cases parent <;> simp [nest, Phase.within, Node.before, Node.during, Node.after, or_assoc]

/-- Chaining a phase puts it behind its neighbour. -/
theorem leads_chain {previous : Option String} {name : String} :
    (g.chain previous name).Leads a b ↔
      g.Leads a b ∨ ∃ pair ∈ Phase.behind previous name, a = .point pair.1 ∧ b = .point pair.2 := by
  cases previous <;> simp [chain, Phase.behind, Node.before, Node.after]

/-- Nesting a phase adds no node. -/
@[simp] theorem nodes_nest (parent : Option String) (name : String) :
    (g.nest parent name).nodes = g.nodes := by
  cases parent <;> simp [nest]

/-- Chaining a phase adds no node. -/
@[simp] theorem nodes_chain (previous : Option String) (name : String) :
    (g.chain previous name).nodes = g.nodes := by
  cases previous <;> simp [chain]

/-! ### Phases -/

/-- A phase is added with its points and its links, then the phases inside it, then those behind
it. -/
theorem addPhases_cons (parent previous : Option String) (name : String) (inner : List Phase)
    (links : List Link) (bindings : List String) (rest : List Phase) :
    g.addPhases parent previous (⟨name, inner, links, bindings⟩ :: rest) =
      addPhases parent (some name)
        ((addPhases (some name) none
          (links.foldl (addLink name) ((g.addPoints name).nest parent name)) inner).chain
            previous name) rest := by
  simp [addPhases, addPhase]

/-- The edges of the declaration and of the links are added. -/
theorem leads_addPhases_iff {parent previous : Option String} {phases : List Phase} :
    (addPhases parent previous g phases).Leads a b ↔
      g.Leads a b ∨
      (∃ pair ∈ Phase.precedencesOf parent previous phases, a = .point pair.1 ∧ b = .point pair.2) ∨
      ∃ phase ∈ Phase.walkAll phases, ∃ link ∈ phase.links, link.edge phase.name = (a, b) := by
  induction phases using Phase.forest_induction generalizing parent previous g with
  | nil => simp [addPhases]
  | cons name inner links bindings rest ihinner ihrest =>
    rw [addPhases_cons, ihrest, leads_chain, ihinner, leads_foldl_addLink, leads_nest]
    simp only [addPoints, leads_addEdge, leads_addNode, Phase.precedencesOf_cons,
      Phase.walkAll_cons, List.mem_cons, List.mem_append, or_and_right, exists_or, exists_eq_left,
      Node.before, Node.during, Node.after]
    grind only

/-- The points of the phases and the targets of links are added. -/
theorem mem_nodes_addPhases_iff {parent previous : Option String} {phases : List Phase} :
    a ∈ (addPhases parent previous g phases).nodes ↔
      a ∈ g.nodes ∨ (∃ point ∈ Phase.pointsOf phases, .point point = a) ∨
      ∃ phase ∈ Phase.walkAll phases, ∃ link ∈ phase.links, link.target = a := by
  induction phases using Phase.forest_induction generalizing parent previous g with
  | nil => simp [addPhases]
  | cons name inner links bindings rest ihinner ihrest =>
    rw [addPhases_cons, ihrest, nodes_chain, ihinner, mem_nodes_foldl_addLink, nodes_nest]
    simp only [addPoints, nodes_addEdge, mem_nodes_addNode, Phase.pointsOf_cons, Phase.walkAll_cons,
      List.mem_cons, List.mem_append, or_and_right, exists_or, exists_eq_left, Node.before,
      Node.during, Node.after, eq_comm (a := a)]
    grind only

/-- Phases add no node twice. -/
theorem nodup_addPhases (h : g.nodes.Nodup) (parent previous : Option String)
    (phases : List Phase) : (addPhases parent previous g phases).nodes.Nodup := by
  induction phases using Phase.forest_induction generalizing parent previous g with
  | nil => simpa [addPhases] using h
  | cons name inner links bindings rest ihinner ihrest =>
    rw [addPhases_cons]
    refine ihrest ?_ _ _
    rw [nodes_chain]
    refine ihinner (nodup_foldl_addLink ?_ _ _) _ _
    rw [nodes_nest, addPoints, nodes_addEdge, nodes_addEdge]
    exact nodup_addNode (nodup_addNode (nodup_addNode h _) _) _

/-! ### The graph of a list of phases -/

variable {phases : List Phase}

/-- The edges of declared phases are the precedences of the declaration and the edges of the
links. -/
theorem leads_ofPhases_iff :
    (ofPhases phases).Leads a b ↔
      (∃ pair ∈ Phase.precedencesOf none none phases, a = .point pair.1 ∧ b = .point pair.2) ∨
      ∃ phase ∈ Phase.walkAll phases, ∃ link ∈ phase.links, link.edge phase.name = (a, b) := by
  rw [ofPhases, leads_addPhases_iff]
  simp [Leads]

/-- The nodes of declared phases are their points and the targets of the links. -/
theorem mem_nodes_ofPhases_iff :
    a ∈ (ofPhases phases).nodes ↔
      (∃ point ∈ Phase.pointsOf phases, .point point = a) ∨
      ∃ phase ∈ Phase.walkAll phases, ∃ link ∈ phase.links, link.target = a := by
  rw [ofPhases, mem_nodes_addPhases_iff]
  simp

/-- Edges stay among the nodes. -/
theorem mem_nodes_of_leads (h : (ofPhases phases).Leads a b) :
    a ∈ (ofPhases phases).nodes ∧ b ∈ (ofPhases phases).nodes := by
  have hpoint : ∀ point ∈ Phase.pointsOf phases, .point point ∈ (ofPhases phases).nodes :=
    fun point hmem => mem_nodes_ofPhases_iff.2 (.inl ⟨point, hmem, rfl⟩)
  rcases leads_ofPhases_iff.1 h with ⟨pair, hpair, rfl, rfl⟩ | ⟨phase, hphase, link, hlink, hedge⟩
  · have hsub := (Phase.earlier_of_mem_precedencesOf hpair).subset
    exact ⟨hpoint _ (hsub List.mem_cons_self),
      hpoint _ (hsub (List.mem_cons_of_mem _ List.mem_cons_self))⟩
  · have htarget : link.target ∈ (ofPhases phases).nodes :=
      mem_nodes_ofPhases_iff.2 (.inr ⟨phase, hphase, link, hlink, rfl⟩)
    have hname := Phase.mem_names_of_mem_walkAll hphase
    have hown : ∀ side, .point ⟨side, phase.name⟩ ∈ (ofPhases phases).nodes := fun side =>
      hpoint _ (Phase.mem_pointsOf_iff.2 hname)
    unfold Link.edge at hedge
    cases hkind : link.kind <;> rw [hkind] at hedge <;> obtain ⟨rfl, rfl⟩ := hedge
    · exact ⟨htarget, hown .before⟩
    · exact ⟨hown .after, htarget⟩

/-- Every node is there once, and the edges stay among the nodes. -/
theorem isClosed_ofPhases (phases : List Phase) : (ofPhases phases).IsClosed where
  nodup := nodup_addPhases List.nodup_nil _ _ _
  source_mem h := (mem_nodes_of_leads h).1
  target_mem h := (mem_nodes_of_leads h).2

end PhaseGraph

end PhasedBuild
