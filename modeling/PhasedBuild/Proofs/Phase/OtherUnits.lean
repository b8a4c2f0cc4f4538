import PhasedBuild.Proofs.Phase.Order

/-!
# Links to phases of other units

A phase of other units has a node of its own. The links after it lead from there and the links
before it lead there, so one of each puts the phases that declare them into an order.

* `Phase.isolate` leaves out the links to phases of other units.
* `PhaseOrder.other_units_constrain_in_pairs`: what these links take away, and what they leave.
* `PhaseOrder.other_units_constrain`: they can leave no order where there is one without them.
-/

namespace PhasedBuild

namespace Phase

mutual

/-- A phase without the links to phases of other units. -/
def isolate : Phase → Phase
  | ⟨name, phases, links, bindings⟩ =>
    ⟨name, isolateAll phases, links.filter Link.isLocal, bindings⟩

/-- Phases without the links to phases of other units. -/
def isolateAll : List Phase → List Phase
  | [] => []
  | phase :: rest => phase.isolate :: isolateAll rest

end

/-- Without its links to other units a phase keeps its name. -/
@[simp] theorem name_isolate (phase : Phase) : phase.isolate.name = phase.name := by
  obtain ⟨⟩ := phase
  simp [isolate]

/-- What is left of the links are the local ones. -/
@[simp] theorem links_isolate (phase : Phase) :
    phase.isolate.links = phase.links.filter Link.isLocal := by
  obtain ⟨⟩ := phase
  simp [isolate]

/-- The walk passes the same phases without their links to other units. -/
theorem walkAll_isolateAll (phases : List Phase) :
    walkAll (isolateAll phases) = (walkAll phases).map isolate := by
  induction phases using forest_induction with
  | nil => rfl
  | cons name inner links bindings rest ihinner ihrest =>
    simp [isolateAll, isolate, ihinner, ihrest]

/-- The names stay the same without links to other units. -/
@[simp] theorem names_isolateAll (phases : List Phase) :
    names (isolateAll phases) = names phases := by
  simp [names, walkAll_isolateAll]

/-- The execution points stay the same without links to other units. -/
@[simp] theorem pointsOf_isolateAll (phases : List Phase) :
    pointsOf (isolateAll phases) = pointsOf phases := by
  induction phases using forest_induction with
  | nil => rfl
  | cons name inner links bindings rest ihinner ihrest =>
    simp [isolateAll, isolate, ihinner, ihrest]

/-- The walk through execution points stays the same without links to other units. -/
@[simp] theorem earlier_isolateAll {phases : List Phase} {a b : PhaseRef} :
    Earlier (isolateAll phases) a b ↔ Earlier phases a b := by
  simp [Earlier]

/-- Links to other units have no part in whether local links agree with the walk. -/
theorem linksAgree_isolateAll {phases : List Phase} :
    LinksAgree (isolateAll phases) ↔ LinksAgree phases := by
  simp [LinksAgree, walkAll_isolateAll, Link.isLocal]

/-- Without links to other units there are no pairs that could disagree. -/
theorem pairsAgree_isolateAll (phases : List Phase) : PairsAgree (isolateAll phases) := by
  intro first hfirst _ _ pointer hother hlink _
  rw [walkAll_isolateAll] at hfirst
  obtain ⟨phase, -, rfl⟩ := List.mem_map.1 hfirst
  rw [links_isolate, List.mem_filter] at hlink
  rw [hlink.2] at hother
  cases hother

end Phase

namespace PhaseOrder

/-- Without the links to phases of other units there is an order when the rest leaves one. -/
theorem exists_ofPhases_isolateAll_iff {phases : List Phase} :
    (∃ order, ofPhases (Phase.isolateAll phases) = .ok order) ↔
      (Phase.names phases).Nodup ∧ Phase.LinksAgree phases := by
  simp [exists_ofPhases_iff, Phase.linksAgree_isolateAll, Phase.pairsAgree_isolateAll]

/-- The links to phases of other units leave the order of declared phases alone if there is one.
They leave one unless a phase comes after a phase of other units and another one, which is not
complete before it starts, comes before the same phase of the same units. -/
theorem other_units_constrain_in_pairs (phases : List Phase) :
    ((∃ order, ofPhases phases = .ok order) ↔
      (∃ order, ofPhases (Phase.isolateAll phases) = .ok order) ∧ Phase.PairsAgree phases) ∧
    ∀ order isolated, ofPhases phases = .ok order →
      ofPhases (Phase.isolateAll phases) = .ok isolated →
        order.points.filter (fun point => point.phase ∈ Phase.names phases) =
          isolated.points.filter fun point => point.phase ∈ Phase.names phases := by
  constructor
  · rw [exists_ofPhases_iff, exists_ofPhases_isolateAll_iff, and_assoc]
  · intro order isolated h hisolated
    have hfilter := filter_points hisolated
    rw [Phase.names_isolateAll, Phase.pointsOf_isolateAll] at hfilter
    rw [filter_points h, hfilter]

end PhaseOrder

/-! ### A deployment and its preparation -/

namespace Deployment

/-- A deployment starts when the tests of the child units are complete. -/
def deploy : Phase where
  name := "deploy"
  links := [⟨.after, .children "test"⟩]

/-- A preparation is complete when the tests of the child units start. -/
def prepare : Phase where
  name := "prepare"
  links := [⟨.before, .children "test"⟩]

/-- Without their links to other units the two phases can be ordered. -/
theorem exists_isolated :
    ∃ order, PhaseOrder.ofPhases (Phase.isolateAll [deploy, prepare]) = .ok order := by
  refine PhaseOrder.exists_ofPhases_isolateAll_iff.2 ⟨by decide, ?_⟩
  simp [deploy, prepare, Phase.LinksAgree]

/-- The preparation is declared behind the deployment. -/
theorem not_pairsAgree : ¬ Phase.PairsAgree [deploy, prepare] := by
  intro h
  have hearlier : Phase.Earlier [deploy, prepare] ⟨.after, "prepare"⟩ ⟨.before, "deploy"⟩ :=
    h prepare (by simp [deploy, prepare]) deploy (by simp [deploy, prepare]) (.children "test") rfl
      List.mem_cons_self List.mem_cons_self
  revert hearlier
  decide

end Deployment

/-- Links to phases of other units may leave no order where there is one without them. -/
theorem PhaseOrder.other_units_constrain : ¬ ∀ phases : List Phase,
    (∃ order, ofPhases phases = .ok order) ↔
      ∃ order, ofPhases (Phase.isolateAll phases) = .ok order := by
  intro h
  have horder := (h [Deployment.deploy, Deployment.prepare]).2 Deployment.exists_isolated
  exact Deployment.not_pairsAgree (exists_ofPhases_iff.1 horder).2.2

end PhasedBuild
