import PhasedBuild.Proofs.Phase.Graph

/-!
# Orders and cycles of execution points

The depth-first search of a closed graph ends in one of two ways: with an order of all nodes that
respects every edge, or with an edge that lies on a cycle. As the places of nodes in an order grow
along every edge, an order excludes cycles.

* `PhaseGraph.exists_executionOrder_iff`: there is an order exactly when there is no cycle, and so
  whenever a rank grows along every edge (`PhaseGraph.exists_executionOrder_of_rank`).
* `PhaseGraph.executionOrder_or_cycle`: both ways to end, for every list of phases.
-/

namespace PhasedBuild.PhaseGraph

open Relation

variable {g : PhaseGraph} {order : List Node} {source target : Node}

/-- What grows along every edge grows along every path. -/
theorem rank_lt_of_transGen {rank : Node → Nat}
    (hrank : ∀ source target, g.Leads source target → rank source < rank target)
    (h : TransGen g.Leads source target) : rank source < rank target := by
  induction h with
  | single hleads => exact hrank _ _ hleads
  | tail _ hleads ih => exact ih.trans (hrank _ _ hleads)

/-- The source of an edge comes before its target. -/
theorem idxOf_lt_of_leads (hg : g.IsClosed) (h : g.executionOrder = .ok order)
    (hleads : g.Leads source target) : order.idxOf source < order.idxOf target := by
  have hperm := perm_of_executionOrder hg h
  have hsource : source ∈ order := hperm.mem_iff.2 (hg.source_mem hleads)
  have hsub : [source, target].Sublist order := by
    refine (ordered_of_executionOrder hg h).sublist_of_isChain
      (.cons_cons hleads (.singleton _)) ?_
    rintro _ ⟨⟩
    exact hsource
  exact idxOf_lt_idxOf_of_sublist (hperm.nodup_iff.2 hg.nodup) hsub

/-- There is an order exactly when there is no cycle. -/
theorem exists_executionOrder_iff (hg : g.IsClosed) :
    (∃ order, g.executionOrder = .ok order) ↔ ∀ node, ¬ TransGen g.Leads node node := by
  constructor
  · rintro ⟨order, h⟩ node hcycle
    exact Nat.lt_irrefl _ (rank_lt_of_transGen (fun _ _ => idxOf_lt_of_leads hg h) hcycle)
  · intro hacyclic
    cases h : g.executionOrder with
    | ok order => exact ⟨order, rfl⟩
    | error fault =>
      obtain ⟨source, target, -, hleads, hback⟩ := exists_cycle_of_executionOrder hg h
      exact absurd (TransGen.head' hleads hback) (hacyclic source)

/-- Nodes can be put into an order if a rank grows along every edge. -/
theorem exists_executionOrder_of_rank (hg : g.IsClosed) (rank : Node → Nat)
    (hrank : ∀ source target, g.Leads source target → rank source < rank target) :
    ∃ order, g.executionOrder = .ok order :=
  (exists_executionOrder_iff hg).2 fun _ hcycle =>
    Nat.lt_irrefl _ (rank_lt_of_transGen hrank hcycle)

/-- For every list of phases the search comes to an order exactly when the graph has no cycle. The
order has every node once, and every edge leads from an earlier to a later node. Otherwise the fault
names the source and the target of an edge from whose target a path leads back to its source. -/
theorem executionOrder_or_cycle (phases : List Phase) :
    let g := ofPhases phases
    ((∃ order, g.executionOrder = .ok order) ↔ ∀ node, ¬ TransGen g.Leads node node) ∧
    ((∃ order, g.executionOrder = .ok order ∧
      order.Nodup ∧ (∀ node, node ∈ order ↔ node ∈ g.nodes) ∧
      ∀ source target, g.Leads source target → order.idxOf source < order.idxOf target) ∨
    ∃ fault source target, g.executionOrder = .error fault ∧
      fault.message = "Cycle detected in lifecycle phases between '" ++ source.display ++
        "' and '" ++ target.display ++ "'" ∧
      g.Leads source target ∧ ReflTransGen g.Leads target source) := by
  intro g
  have hg : g.IsClosed := isClosed_ofPhases phases
  refine ⟨exists_executionOrder_iff hg, ?_⟩
  cases h : g.executionOrder with
  | ok order =>
    have hperm := perm_of_executionOrder hg h
    exact .inl ⟨order, rfl, hperm.nodup_iff.2 hg.nodup, fun _ => hperm.mem_iff,
      fun _ _ => idxOf_lt_of_leads hg h⟩
  | error fault =>
    obtain ⟨source, target, rfl, hleads, hback⟩ := exists_cycle_of_executionOrder hg h
    exact .inr ⟨_, source, target, rfl, rfl, hleads, hback⟩

end PhasedBuild.PhaseGraph
