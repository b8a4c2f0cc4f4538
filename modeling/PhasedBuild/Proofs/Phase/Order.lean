import Mathlib.Data.Finset.Lattice.Fold
import Mathlib.Order.Lattice.Nat
import PhasedBuild.Proofs.Phase.Cycles

/-!
# The order of declared phases

The declaration of phases fixes the order of their points: each of them directly follows the one
before it in the walk. Links can only agree with that or leave no order at all.

* `PhaseOrder.exists_ofPhases_iff`: there is an order exactly when no name is declared twice and the
  links agree with the walk, those to phases of other units in pairs.
* `PhaseOrder.order_follows_declaration`: what an order looks like, and when there is one for phases
  whose links stay within the unit.
-/

namespace PhasedBuild

namespace Phase

/-- The links between declared phases of the unit agree with the walk. -/
def LinksAgree (phases : List Phase) : Prop :=
  ∀ phase ∈ walkAll phases, ∀ name ∈ names phases,
    (⟨.after, .phase name⟩ ∈ phase.links →
      Earlier phases ⟨.after, name⟩ ⟨.before, phase.name⟩) ∧
    (⟨.before, .phase name⟩ ∈ phase.links →
      Earlier phases ⟨.after, phase.name⟩ ⟨.before, name⟩)

/-- A phase that comes before a phase of other units stands, in the walk, before every phase that
comes after the same phase of the same units. -/
def PairsAgree (phases : List Phase) : Prop :=
  ∀ first ∈ walkAll phases, ∀ second ∈ walkAll phases, ∀ pointer,
    (⟨.before, pointer⟩ : Link).isLocal = false →
    ⟨.before, pointer⟩ ∈ first.links → ⟨.after, pointer⟩ ∈ second.links →
      Earlier phases ⟨.after, first.name⟩ ⟨.before, second.name⟩

/-! ### A rank that grows along the edges -/

/-- The names of the phases with a link that puts them before a phase of other units. -/
def before (phases : List Phase) (pointer : Pointer) : Finset String :=
  (((walkAll phases).filter fun phase => ⟨.before, pointer⟩ ∈ phase.links).map (·.name)).toFinset

/-- The rank of a point: its place in the walk. Points of phases that are not declared come first or
last, as only one kind of links leads to them. -/
def pointRank (phases : List Phase) (point : PhaseRef) : Nat :=
  if point ∈ pointsOf phases then 2 * (pointsOf phases).idxOf point + 2
  else match point.side with
    | .before => 2 * (pointsOf phases).length + 2
    | .during => 0
    | .after => 0

/-- The rank of a phase of other units: directly behind the last point that a link puts before
it. -/
def pointerRank (phases : List Phase) (pointer : Pointer) : Nat :=
  (before phases pointer).sup (fun name => pointRank phases ⟨.after, name⟩) + 1

/-- The rank of a node. -/
def rank (phases : List Phase) : Node → Nat
  | .point point => pointRank phases point
  | .children phase => pointerRank phases (.children phase)
  | .dependencies scope phase => pointerRank phases (.dependencies scope phase)

section rank

variable {phases : List Phase}

/-- The rank of a point of a declared phase goes by its place in the walk. -/
theorem pointRank_of_mem (point : PhaseRef) (h : point.phase ∈ names phases) :
    pointRank phases point = 2 * (pointsOf phases).idxOf point + 2 :=
  if_pos (mem_pointsOf_iff.2 h)

/-- The points of a phase that is not declared come last if they are before it, and else first. -/
theorem pointRank_of_not_mem (point : PhaseRef) (h : point.phase ∉ names phases) :
    pointRank phases point =
      match point.side with
      | .before => 2 * (pointsOf phases).length + 2
      | .during => 0
      | .after => 0 :=
  if_neg fun hmem => h (mem_pointsOf_iff.1 hmem)

/-- There is room for a rank between those of two points in a row. -/
theorem Earlier.pointRank_add_one_lt (hnodup : (names phases).Nodup) {a b : PhaseRef}
    (h : Earlier phases a b) : pointRank phases a + 1 < pointRank phases b := by
  have hlt := idxOf_lt_idxOf_of_sublist (nodup_pointsOf_iff.2 hnodup) h
  have ha : a ∈ pointsOf phases := h.subset List.mem_cons_self
  have hb : b ∈ pointsOf phases := h.subset (List.mem_cons_of_mem _ List.mem_cons_self)
  rw [pointRank_of_mem a (mem_pointsOf_iff.1 ha), pointRank_of_mem b (mem_pointsOf_iff.1 hb)]
  omega

/-- A phase stands before one of other units exactly if it has a link that says so. -/
theorem mem_before_iff {pointer : Pointer} {name : String} :
    name ∈ before phases pointer ↔
      ∃ phase ∈ walkAll phases, ⟨.before, pointer⟩ ∈ phase.links ∧ phase.name = name := by
  simp [before, and_assoc]

/-- A phase of other units ranks behind every phase that a link puts before it. -/
theorem pointRank_lt_pointerRank {phase : Phase} (hphase : phase ∈ walkAll phases)
    {pointer : Pointer} (hlink : ⟨.before, pointer⟩ ∈ phase.links) :
    pointRank phases ⟨.after, phase.name⟩ < pointerRank phases pointer :=
  Nat.lt_succ_of_le (Finset.le_sup (f := fun name => pointRank phases ⟨.after, name⟩)
    (mem_before_iff.2 ⟨phase, hphase, hlink, rfl⟩))

/-- A phase that comes after a phase of other units ranks behind it, if all pairs agree with the
walk. -/
theorem pointerRank_lt_pointRank (hnodup : (names phases).Nodup) (hpairs : PairsAgree phases)
    {phase : Phase} (hphase : phase ∈ walkAll phases) {pointer : Pointer}
    (hother : (⟨.before, pointer⟩ : Link).isLocal = false)
    (hlink : ⟨.after, pointer⟩ ∈ phase.links) :
    pointerRank phases pointer < pointRank phases ⟨.before, phase.name⟩ := by
  have hrank := pointRank_of_mem ⟨.before, phase.name⟩ (mem_names_of_mem_walkAll hphase)
  have hpos : ⊥ < pointRank phases ⟨.before, phase.name⟩ - 1 := by
    rw [hrank]
    exact Nat.succ_pos _
  have hsup : (before phases pointer).sup (fun name => pointRank phases ⟨.after, name⟩) <
      pointRank phases ⟨.before, phase.name⟩ - 1 := by
    refine (Finset.sup_lt_iff hpos).2 fun name hname => ?_
    obtain ⟨first, hfirst, hbefore, rfl⟩ := mem_before_iff.1 hname
    have hlt := (hpairs first hfirst phase hphase pointer hother hbefore hlink).pointRank_add_one_lt
      hnodup
    omega
  unfold pointerRank
  omega

/-- The rank grows along every edge if the links agree with the walk. -/
theorem rank_lt_of_leads (hnodup : (names phases).Nodup) (hlinks : LinksAgree phases)
    (hpairs : PairsAgree phases) {a b : Node} (h : (PhaseGraph.ofPhases phases).Leads a b) :
    rank phases a < rank phases b := by
  have hearlier : ∀ {a b}, Earlier phases a b → pointRank phases a < pointRank phases b :=
    fun h => (Nat.lt_succ_self _).trans (h.pointRank_add_one_lt hnodup)
  rcases PhaseGraph.leads_ofPhases_iff.1 h with
    ⟨pair, hpair, rfl, rfl⟩ | ⟨phase, hphase, ⟨kind, pointer⟩, hlink, hedge⟩
  · exact hearlier (earlier_of_mem_precedencesOf hpair)
  · have hname := mem_names_of_mem_walkAll hphase
    obtain ⟨rfl, rfl⟩ := Prod.ext_iff.1 hedge
    rcases pointer with name | other | ⟨scope, other⟩
    · by_cases hdeclared : name ∈ names phases
      · have hagree := hlinks phase hphase name hdeclared
        cases kind
        · exact hearlier (hagree.1 hlink)
        · exact hearlier (hagree.2 hlink)
      · -- only edges to the point before it, or from the point after it, are at such a phase
        have hmem : ∀ side, (⟨side, phase.name⟩ : PhaseRef) ∈ pointsOf phases := fun side =>
          mem_pointsOf_iff.2 hname
        cases kind
        · show pointRank phases ⟨.after, name⟩ < pointRank phases ⟨.before, phase.name⟩
          rw [pointRank_of_not_mem ⟨.after, name⟩ hdeclared, pointRank_of_mem _ hname]
          exact Nat.succ_pos _
        · show pointRank phases ⟨.after, phase.name⟩ < pointRank phases ⟨.before, name⟩
          have hlt := List.idxOf_lt_length_iff.2 (hmem .after)
          rw [pointRank_of_not_mem ⟨.before, name⟩ hdeclared, pointRank_of_mem _ hname]
          simp only
          omega
    · cases kind
      · exact pointerRank_lt_pointRank hnodup hpairs hphase rfl hlink
      · exact pointRank_lt_pointerRank hphase hlink
    · cases kind
      · exact pointerRank_lt_pointRank hnodup hpairs hphase rfl hlink
      · exact pointRank_lt_pointerRank hphase hlink

end rank

end Phase

namespace PhaseOrder

variable {phases : List Phase} {order : PhaseOrder}

/-- The order of declared phases has the points of an order of their graph. -/
theorem exists_of_ofPhases (h : ofPhases phases = .ok order) :
    ∃ nodes, (PhaseGraph.ofPhases phases).executionOrder = .ok nodes ∧
      order.points = nodes.filterMap Node.point? := by
  unfold ofPhases at h
  cases hnodes : (PhaseGraph.ofPhases phases).executionOrder with
  | error fault =>
    rw [hnodes] at h
    cases h
  | ok nodes =>
    rw [hnodes] at h
    exact ⟨nodes, rfl, (congrArg PhaseOrder.points (Except.ok.inj h)).symm⟩

/-- No execution point comes twice in an order. -/
theorem nodup_points (h : ofPhases phases = .ok order) : order.points.Nodup := by
  obtain ⟨nodes, hnodes, hpoints⟩ := exists_of_ofPhases h
  have hclosed := PhaseGraph.isClosed_ofPhases phases
  have hperm := PhaseGraph.perm_of_executionOrder hclosed hnodes
  rw [hpoints]
  refine (hperm.nodup_iff.2 hclosed.nodup).filterMap ?_
  intro a b point ha hb
  cases a <;> cases b <;> simp_all [Node.point?]

/-- Nodes that follow each other along edges have their points in this order. -/
theorem sublist_points (h : ofPhases phases = .ok order) {nodes : List Node}
    (hchain : nodes.IsChain (PhaseGraph.ofPhases phases).Leads)
    (hfirst : ∀ first ∈ nodes.head?, first ∈ (PhaseGraph.ofPhases phases).nodes) :
    (nodes.filterMap Node.point?).Sublist order.points := by
  obtain ⟨all, hall, hpoints⟩ := exists_of_ofPhases h
  have hclosed := PhaseGraph.isClosed_ofPhases phases
  have hordered := PhaseGraph.ordered_of_executionOrder hclosed hall
  have hperm := PhaseGraph.perm_of_executionOrder hclosed hall
  rw [hpoints]
  refine (hordered.sublist_of_isChain hchain fun first hmem => ?_).filterMap _
  exact hperm.mem_iff.2 (hfirst first hmem)

/-- The points of declared phases come in the order of the walk. -/
theorem pointsOf_sublist (h : ofPhases phases = .ok order) :
    (Phase.pointsOf phases).Sublist order.points := by
  have hchain : ((Phase.pointsOf phases).map Node.point).IsChain
      (PhaseGraph.ofPhases phases).Leads :=
    (List.isChain_map _).2 (Phase.isChain_pointsOf fun pair hpair =>
      PhaseGraph.leads_ofPhases_iff.2 (.inl ⟨pair, hpair, rfl, rfl⟩))
  have hsub := sublist_points h hchain fun first hmem => by
    obtain ⟨point, hpoint, rfl⟩ := List.mem_map.1 (List.mem_of_mem_head? hmem)
    exact PhaseGraph.mem_nodes_ofPhases_iff.2 (.inl ⟨point, hpoint, rfl⟩)
  rwa [List.filterMap_map, show Node.point? ∘ Node.point = some from rfl, List.filterMap_some]
    at hsub

/-- Only phases with distinct names have an order. -/
theorem nodup_names (h : ofPhases phases = .ok order) : (Phase.names phases).Nodup :=
  Phase.nodup_pointsOf_iff.1 ((pointsOf_sublist h).nodup (nodup_points h))

/-- The points of declared phases are those of the walk, in its order. -/
theorem filter_points (h : ofPhases phases = .ok order) :
    order.points.filter (fun point => point.phase ∈ Phase.names phases) =
      Phase.pointsOf phases := by
  have hnodup := (nodup_points h).filter fun point => point.phase ∈ Phase.names phases
  have hsub := (pointsOf_sublist h).filter fun point => point.phase ∈ Phase.names phases
  rw [List.filter_eq_self.2 fun point hmem => by simpa using Phase.mem_pointsOf_iff.1 hmem] at hsub
  refine (hsub.eq_of_length_le (hnodup.subperm fun point hmem => ?_).length_le).symm
  have hname := (List.mem_filter.1 hmem).2
  exact Phase.mem_pointsOf_iff.2 (by simpa using hname)

/-- Points of declared phases that come in an order come in it in the walk. -/
theorem earlier_of_sublist (h : ofPhases phases = .ok order) {a b : PhaseRef}
    (hab : [a, b].Sublist order.points) (ha : a.phase ∈ Phase.names phases)
    (hb : b.phase ∈ Phase.names phases) : Phase.Earlier phases a b := by
  have hsub := hab.filter fun point => point.phase ∈ Phase.names phases
  rw [filter_points h, List.filter_eq_self.2 (by simp [ha, hb])] at hsub
  exact hsub

/-- An edge between points of declared phases leads forwards in the walk. -/
theorem earlier_of_leads (h : ofPhases phases = .ok order) {a b : PhaseRef}
    (hleads : (PhaseGraph.ofPhases phases).Leads (.point a) (.point b))
    (ha : a.phase ∈ Phase.names phases) (hb : b.phase ∈ Phase.names phases) :
    Phase.Earlier phases a b := by
  refine earlier_of_sublist h ?_ ha hb
  refine sublist_points h (.cons_cons hleads (.singleton _)) ?_
  rintro _ ⟨⟩
  exact (PhaseGraph.mem_nodes_of_leads hleads).1

/-- Only phases whose links agree with the walk have an order. -/
theorem linksAgree (h : ofPhases phases = .ok order) : Phase.LinksAgree phases := by
  intro phase hphase name hname
  have hown := Phase.mem_names_of_mem_walkAll hphase
  refine ⟨fun hlink => earlier_of_leads h ?_ hname hown,
    fun hlink => earlier_of_leads h ?_ hown hname⟩
  · exact PhaseGraph.leads_ofPhases_iff.2 (.inr ⟨phase, hphase, _, hlink, rfl⟩)
  · exact PhaseGraph.leads_ofPhases_iff.2 (.inr ⟨phase, hphase, _, hlink, rfl⟩)

/-- Only phases whose links to other units agree with the walk in pairs have an order. -/
theorem pairsAgree (h : ofPhases phases = .ok order) : Phase.PairsAgree phases := by
  intro first hfirst second hsecond pointer hother hbefore hafter
  have hin := PhaseGraph.leads_ofPhases_iff.2 (.inr ⟨first, hfirst, _, hbefore, rfl⟩)
  have hout := PhaseGraph.leads_ofPhases_iff.2 (.inr ⟨second, hsecond, _, hafter, rfl⟩)
  refine earlier_of_sublist h ?_ (Phase.mem_names_of_mem_walkAll hfirst)
    (Phase.mem_names_of_mem_walkAll hsecond)
  have hstart : .after first.name ∈ (PhaseGraph.ofPhases phases).nodes :=
    (PhaseGraph.mem_nodes_of_leads hin).1
  cases pointer with
  | phase name => cases hother
  | children other =>
    refine sublist_points h (.cons_cons hin (.cons_cons hout (.singleton _))) ?_
    rintro _ ⟨⟩
    exact hstart
  | dependencies scope other =>
    refine sublist_points h (.cons_cons hin (.cons_cons hout (.singleton _))) ?_
    rintro _ ⟨⟩
    exact hstart

/-- There is an order exactly when the declaration and the links leave one. -/
theorem exists_ofPhases_iff :
    (∃ order, ofPhases phases = .ok order) ↔
      (Phase.names phases).Nodup ∧ Phase.LinksAgree phases ∧ Phase.PairsAgree phases := by
  constructor
  · rintro ⟨order, h⟩
    exact ⟨nodup_names h, linksAgree h, pairsAgree h⟩
  · rintro ⟨hnodup, hlinks, hpairs⟩
    obtain ⟨nodes, hnodes⟩ := PhaseGraph.exists_executionOrder_of_rank
      (PhaseGraph.isClosed_ofPhases phases) (Phase.rank phases) fun _ _ hleads =>
        Phase.rank_lt_of_leads hnodup hlinks hpairs hleads
    exact ⟨_, by rw [ofPhases, hnodes]; rfl⟩

/-- Only declared phases have a point at them in the order. -/
theorem mem_names_of_during (h : ofPhases phases = .ok order) {name : String}
    (hmem : ⟨.during, name⟩ ∈ order.points) : name ∈ Phase.names phases := by
  obtain ⟨nodes, hnodes, hpoints⟩ := exists_of_ofPhases h
  have hclosed := PhaseGraph.isClosed_ofPhases phases
  rw [hpoints] at hmem
  obtain ⟨node, hnode, hpoint⟩ := List.mem_filterMap.1 hmem
  obtain rfl : node = .point ⟨.during, name⟩ := by cases node <;> simp_all [Node.point?]
  rcases PhaseGraph.mem_nodes_ofPhases_iff.1
    ((PhaseGraph.perm_of_executionOrder hclosed hnodes).mem_iff.1 hnode) with
    ⟨point, hmem, ⟨⟩⟩ | ⟨phase, -, ⟨kind, pointer⟩, -, htarget⟩
  · exact Phase.mem_pointsOf_iff.1 hmem
  · cases pointer <;> cases kind <;> cases htarget

/-- The phases of an order come in the order of the walk, parents last. -/
theorem phases_eq (h : ofPhases phases = .ok order) : order.phases = Phase.postorderOf phases := by
  have hphases : order.phases = order.points.filterMap Phase.during? := by
    refine List.filterMap_congr fun point _ => ?_
    obtain ⟨side, name⟩ := point
    cases side <;> rfl
  rw [hphases, ← Phase.filterMap_during?_pointsOf, ← filter_points h, List.filterMap_filter]
  refine List.filterMap_congr fun point hmem => ?_
  obtain ⟨side, name⟩ := point
  cases side with
  | during => simp [mem_names_of_during h hmem]
  | before => simp
  | after => simp

/-- The position of a point is the place where it stands in the order. -/
theorem position?_eq_some_iff (h : ofPhases phases = .ok order) {point : PhaseRef} {i : Nat} :
    order.position? point = some i ↔ order.points[i]? = some point := by
  refine ⟨getElem?_of_position?, fun hpoint => ?_⟩
  obtain ⟨hi, rfl⟩ := List.getElem?_eq_some_iff.1 hpoint
  refine List.findIdx?_eq_some_iff_getElem.2 ⟨hi, by simp, fun j hj => ?_⟩
  simpa using fun he => hj.ne ((nodup_points h).getElem_inj_iff.1 he)

/-- An order follows the declaration: no name is declared twice, and the points of declared phases
come once each and as in the walk, so the phases come as declared, parents last. Every point has its
own position. For phases whose links stay within the unit there is an order exactly when no name is
declared twice and the links between declared phases agree with the walk. -/
theorem order_follows_declaration (phases : List Phase) :
    (∀ order, ofPhases phases = .ok order →
      (Phase.names phases).Nodup ∧
      order.points.filter (fun point => point.phase ∈ Phase.names phases) =
        Phase.pointsOf phases ∧
      order.phases = Phase.postorderOf phases ∧
      order.points.Nodup ∧
      ∀ point i, order.position? point = some i ↔ order.points[i]? = some point) ∧
    ((∀ phase ∈ Phase.walkAll phases, ∀ link ∈ phase.links, link.isLocal = true) →
      ((∃ order, ofPhases phases = .ok order) ↔
        (Phase.names phases).Nodup ∧ Phase.LinksAgree phases)) := by
  refine ⟨fun order h => ⟨nodup_names h, filter_points h, phases_eq h, nodup_points h,
    fun _ _ => position?_eq_some_iff h⟩, fun hlocal => ?_⟩
  have hpairs : Phase.PairsAgree phases := by
    intro first hfirst _ _ pointer hother hbefore _
    rw [hlocal first hfirst _ hbefore] at hother
    cases hother
  rw [exists_ofPhases_iff]
  exact ⟨fun ⟨hnodup, hlinks, _⟩ => ⟨hnodup, hlinks⟩, fun ⟨hnodup, hlinks⟩ =>
    ⟨hnodup, hlinks, hpairs⟩⟩

end PhaseOrder

end PhasedBuild
