import Mathlib.Data.List.Chain
import Mathlib.Data.List.Perm.Basic
import Mathlib.Logic.Relation
import PhasedBuild.Phase.Order

/-!
# What the depth-first search finds

The search of a graph whose edges stay among its nodes either puts all nodes into an order that
respects every edge, or stops at an edge that closes a cycle.

The invariant of the search (`PhaseGraph.Progress`) says that each node is fresh, on the trail or
finished, that the successors of finished nodes are finished, and that those of a node on the trail
are finished, still to be visited, or just being visited.

* `PhaseGraph.perm_of_executionOrder` and `PhaseGraph.ordered_of_executionOrder`: an order has every
  node once, and edges lead from earlier to later nodes.
* `PhaseGraph.exists_cycle_of_executionOrder`: without an order there is a cycle.
* `PhaseGraph.Ordered.sublist_of_isChain`: nodes that follow each other along edges do so in the
  order.
-/

namespace PhasedBuild.PhaseGraph

open Relation

/-! ### Edges -/

/-- An edge leads from one node to another. -/
def Leads (g : PhaseGraph) (source target : Node) : Prop :=
  (source, target) ∈ g.edges

/-- Every node is there once, and the edges stay among the nodes. -/
structure IsClosed (g : PhaseGraph) : Prop where
  nodup : g.nodes.Nodup
  source_mem : ∀ {source target}, g.Leads source target → source ∈ g.nodes
  target_mem : ∀ {source target}, g.Leads source target → target ∈ g.nodes

/-- Edges lead from each node of a list to later ones only. -/
def Ordered (g : PhaseGraph) : List Node → Prop
  | [] => True
  | node :: rest => (∀ target, g.Leads node target → target ∈ rest) ∧ g.Ordered rest

variable {g : PhaseGraph}

/-- From a node the search goes on to those that an edge leads to. -/
theorem mem_visits_iff {source target : Node} :
    target ∈ g.visits source ↔ g.Leads source target := by
  simp [visits, successors, Leads]

namespace Ordered

variable {order : List Node}

/-- Nodes that follow each other along edges come in this order. -/
theorem sublist_of_isChain (h : g.Ordered order) {nodes : List Node}
    (hchain : nodes.IsChain g.Leads) (hfirst : ∀ first ∈ nodes.head?, first ∈ order) :
    nodes.Sublist order := by
  induction order generalizing nodes with
  | nil =>
    cases nodes with
    | nil => exact .slnil
    | cons first _ => exact absurd (hfirst first rfl) List.not_mem_nil
  | cons node rest ih =>
    obtain ⟨hnode, hrest⟩ := h
    cases nodes with
    | nil => exact List.nil_sublist _
    | cons first others =>
      obtain ⟨hsecond, hothers⟩ := List.isChain_cons.1 hchain
      rcases List.mem_cons.1 (hfirst first rfl) with rfl | hmem
      · exact (ih hrest hothers fun second hmem => hnode second (hsecond second hmem)).cons_cons _
      · exact (ih hrest hchain fun _ he => Option.mem_some_iff.1 he ▸ hmem).cons _

end Ordered

/-! ### The invariant of the search -/

/-- A trail and the node that its first frame is just visiting: edges lead up the trail and to all
that is still to be visited, and nowhere else but to finished nodes. -/
def IsTrail (g : PhaseGraph) (finished : List Node) : Option Node → Trail → Prop
  | _, [] => True
  | visited, (node, pending) :: rest =>
    (∀ target ∈ pending, g.Leads node target) ∧
    (∀ target ∈ visited, g.Leads node target) ∧
    (∀ target, g.Leads node target → target ∈ pending ∨ target ∈ finished ∨ target ∈ visited) ∧
    g.IsTrail finished (some node) rest

namespace IsTrail

variable {finished : List Node} {visited : Option Node} {trail : Trail}

/-- A node that has been visited becomes finished. -/
theorem finish {node : Node} (h : g.IsTrail finished visited trail)
    (hvisited : ∀ target ∈ visited, target = node) : g.IsTrail (node :: finished) none trail := by
  -- only the first frame may be visiting `node`; those below visit the frame above them
  have below : ∀ {trail : Trail} {visited : Option Node}, g.IsTrail finished visited trail →
      g.IsTrail (node :: finished) visited trail := by
    intro trail
    induction trail with
    | nil => exact fun _ => trivial
    | cons frame rest ih =>
      rintro visited ⟨hpending, hleads, hsuccessors, hrest⟩
      refine ⟨hpending, hleads, fun target ht => ?_, ih hrest⟩
      exact (hsuccessors target ht).imp_right (Or.imp_left (List.mem_cons_of_mem _))
  cases trail with
  | nil => trivial
  | cons frame rest =>
    obtain ⟨hpending, -, hsuccessors, hrest⟩ := h
    refine ⟨hpending, by simp, fun target ht => ?_, below hrest⟩
    rcases hsuccessors target ht with hmem | hmem | hmem
    · exact .inl hmem
    · exact .inr (.inl (List.mem_cons_of_mem _ hmem))
    · exact .inr (.inl (hvisited target hmem ▸ List.mem_cons_self))

/-- Every node of the trail leads to the node that is just being visited. -/
theorem reaches {node : Node} (h : g.IsTrail finished (some node) trail) :
    ∀ lower ∈ trail.map (·.1), ReflTransGen g.Leads lower node := by
  induction trail generalizing node with
  | nil => exact fun _ hmem => absurd hmem List.not_mem_nil
  | cons frame rest ih =>
    obtain ⟨-, hleads, -, hrest⟩ := h
    have hframe : g.Leads frame.1 node := hleads node rfl
    intro lower hmem
    rcases List.mem_cons.1 hmem with rfl | hmem
    · exact .single hframe
    · exact (ih hrest lower hmem).tail hframe

end IsTrail

/-- The invariant of the search. -/
structure Progress (g : PhaseGraph) (fresh : List Node) (trail : Trail) (finished : List Node) :
    Prop where
  perm : (fresh ++ trail.map (·.1) ++ finished).Perm g.nodes
  isTrail : g.IsTrail finished none trail
  ordered : g.Ordered finished

namespace Progress

variable {fresh finished : List Node} {trail rest : Trail} {node next : Node} {more : List Node}

/-- In the beginning nothing is finished, and there is no trail. -/
theorem start (g : PhaseGraph) : g.Progress g.nodes [] [] :=
  ⟨by simp, trivial, trivial⟩

/-- A fresh node is entered, from the first node of the trail if there is one. -/
theorem enter (hperm : (fresh ++ rest.map (·.1) ++ finished).Perm g.nodes) (hnext : next ∈ fresh)
    (hrest : g.IsTrail finished (some next) rest) (hordered : g.Ordered finished) :
    g.Progress (fresh.erase next) ((next, g.visits next) :: rest) finished where
  perm := by
    refine List.Perm.trans ?_ hperm
    simp only [List.map_cons, List.append_assoc]
    exact List.perm_middle.trans ((List.perm_cons_erase hnext).symm.append_right _)
  isTrail :=
    ⟨fun _ ht => mem_visits_iff.1 ht, by simp, fun _ ht => .inl (mem_visits_iff.2 ht), hrest⟩
  ordered := hordered

/-- A node without successors to visit is finished. -/
theorem leave (h : g.Progress fresh ((node, []) :: rest) finished) :
    g.Progress fresh rest (node :: finished) := by
  obtain ⟨-, -, hsuccessors, hrest⟩ := h.isTrail
  refine ⟨?_, hrest.finish fun _ ht => (Option.mem_some_iff.1 ht).symm, ?_, h.ordered⟩
  · refine List.Perm.trans ?_ h.perm
    simp only [List.map_cons, List.append_assoc]
    exact List.Perm.append_left _ List.perm_middle
  · intro target hleads
    simpa using hsuccessors target hleads

/-- A successor that is neither fresh nor on the trail is finished. -/
theorem mem_finished (h : g.Progress fresh ((node, next :: more) :: rest) finished)
    (hg : g.IsClosed) (hfresh : next ∉ fresh) (htrail : next ∉ node :: rest.map (·.1)) :
    next ∈ finished := by
  have hmem : next ∈ g.nodes := hg.target_mem (h.isTrail.1 next List.mem_cons_self)
  have hnext := h.perm.mem_iff.2 hmem
  simp only [List.mem_append, List.map_cons] at hnext
  exact hnext.resolve_left (not_or.2 ⟨hfresh, htrail⟩)

/-- A successor that is finished is passed over. -/
theorem pass (h : g.Progress fresh ((node, next :: more) :: rest) finished)
    (hnext : next ∈ finished) : g.Progress fresh ((node, more) :: rest) finished := by
  obtain ⟨hpending, hvisited, hsuccessors, hrest⟩ := h.isTrail
  refine ⟨h.perm, ⟨fun _ ht => hpending _ (List.mem_cons_of_mem _ ht), hvisited, ?_, hrest⟩,
    h.ordered⟩
  intro target hleads
  rcases hsuccessors target hleads with hmem | hmem
  · rcases List.mem_cons.1 hmem with rfl | hmem
    · exact .inr (.inl hnext)
    · exact .inl hmem
  · exact .inr hmem

/-- A successor of the first node of the trail is just being visited when it has been entered. -/
theorem visit (h : g.Progress fresh ((node, next :: more) :: rest) finished) :
    g.IsTrail finished (some next) ((node, more) :: rest) := by
  obtain ⟨hpending, -, hsuccessors, hrest⟩ := h.isTrail
  refine ⟨fun _ ht => hpending _ (List.mem_cons_of_mem _ ht), ?_, ?_, hrest⟩
  · rintro _ ⟨⟩
    exact hpending next List.mem_cons_self
  · intro target hleads
    rcases hsuccessors target hleads with hmem | hmem | hmem
    · rcases List.mem_cons.1 hmem with rfl | hmem
      · exact .inr (.inr rfl)
      · exact .inl hmem
    · exact .inr (.inl hmem)
    · cases hmem

end Progress

/-! ### What the search comes to -/

/-- A result of the search has all nodes, in an order that respects the edges. -/
theorem ordered_of_search (hg : g.IsClosed) {fresh finished result : List Node} {trail : Trail}
    (h : g.Progress fresh trail finished) (hresult : g.search fresh trail finished = .ok result) :
    result.Perm g.nodes ∧ g.Ordered result := by
  fun_induction search g fresh trail finished with
  | case1 fresh finished hlast =>
    obtain rfl := Except.ok.inj hresult
    obtain rfl := List.getLast?_eq_none_iff.1 hlast
    exact ⟨by simpa using h.perm, h.ordered⟩
  | case2 fresh finished root hlast ih =>
    exact ih (.enter h.perm (List.mem_of_getLast? hlast) trivial h.ordered) hresult
  | case3 fresh finished node rest ih => exact ih h.leave hresult
  | case4 fresh finished node next more rest hnext ih =>
    exact ih (.enter h.perm hnext h.visit h.ordered) hresult
  | case5 => cases hresult
  | case6 fresh finished node next more rest hfresh htrail ih =>
    exact ih (h.pass (h.mem_finished hg hfresh htrail)) hresult

/-- The search stops at an edge whose target leads back to its source. -/
theorem exists_cycle_of_search {fresh finished : List Node} {trail : Trail} {fault : Fault}
    (h : g.Progress fresh trail finished) (hg : g.IsClosed)
    (hfault : g.search fresh trail finished = .error fault) :
    ∃ source target, fault = .phaseCycle source target ∧ g.Leads source target ∧
      ReflTransGen g.Leads target source := by
  fun_induction search g fresh trail finished with
  | case1 => cases hfault
  | case2 fresh finished root hlast ih =>
    exact ih (.enter h.perm (List.mem_of_getLast? hlast) trivial h.ordered) hfault
  | case3 fresh finished node rest ih => exact ih h.leave hfault
  | case4 fresh finished node next more rest hnext ih =>
    exact ih (.enter h.perm hnext h.visit h.ordered) hfault
  | case5 fresh finished node next more rest hfresh htrail =>
    obtain ⟨hpending, -, -, hrest⟩ := h.isTrail
    refine ⟨node, next, (Except.error.inj hfault).symm, hpending next List.mem_cons_self, ?_⟩
    rcases List.mem_cons.1 htrail with rfl | htrail
    · exact .refl
    · exact hrest.reaches next htrail
  | case6 fresh finished node next more rest hfresh htrail ih =>
    exact ih (h.pass (h.mem_finished hg hfresh htrail)) hfault

/-- An order that is found has every node once. -/
theorem perm_of_executionOrder (hg : g.IsClosed) {order : List Node}
    (h : g.executionOrder = .ok order) : order.Perm g.nodes :=
  (ordered_of_search hg (.start g) h).1

/-- In an order that is found, edges lead to later nodes only. -/
theorem ordered_of_executionOrder (hg : g.IsClosed) {order : List Node}
    (h : g.executionOrder = .ok order) : g.Ordered order :=
  (ordered_of_search hg (.start g) h).2

/-- If no order is found, the error names an edge from whose target a path leads back to its
source. -/
theorem exists_cycle_of_executionOrder (hg : g.IsClosed) {fault : Fault}
    (h : g.executionOrder = .error fault) :
    ∃ source target, fault = .phaseCycle source target ∧ g.Leads source target ∧
      ReflTransGen g.Leads target source :=
  exists_cycle_of_search (.start g) hg h

end PhasedBuild.PhaseGraph
