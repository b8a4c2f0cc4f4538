import PhasedBuild.Manifest
import PhasedBuild.Proofs.Lifecycle.Standing

/-!
# The standard lifecycles stand side by side

* `LifecycleRegistry.Settled.exists_registerAll`: lifecycles that have orders and claim no name
  twice are all taken.
* `Standard.exists_registerAll`: so are the standard lifecycles. Hence only what a manifest declares
  itself can be refused.
-/

namespace PhasedBuild

namespace Phase

instance (phases : List Phase) : Decidable (LinksAgree phases) :=
  inferInstanceAs (Decidable (∀ phase ∈ walkAll phases, ∀ name ∈ names phases, _ ∧ _))

/-- Where no phase comes before one of other units there are no pairs of such links. -/
theorem pairsAgree_of_after {phases : List Phase}
    (h : ∀ phase ∈ walkAll phases, ∀ link ∈ phase.links, link.kind = .after) :
    PairsAgree phases := by
  intro first hfirst _ _ pointer _ hbefore _
  cases h first hfirst _ hbefore

end Phase

namespace LifecycleRegistry

/-- Lifecycles with orders of their own are taken one after the other if no two of them, nor one of
them and one in the registry, claim the same name under different ids. -/
theorem Settled.exists_registerAll {r : LifecycleRegistry} (h : r.Settled)
    {declared : List Lifecycle}
    (horders : ∀ l ∈ declared,
      l.phaseNames.Nodup ∧ ∃ order, PhaseOrder.ofPhases l.phases = .ok order)
    (hapart : (r.lifecycles ++ declared).Pairwise fun first second =>
      first.id ≠ second.id → second.claimedNames.Disjoint first.claimedNames) :
    ∃ r', r.registerAll declared = .ok r' := by
  induction declared generalizing r with
  | nil => exact ⟨r, rfl⟩
  | cons l rest ih =>
    obtain ⟨⟨hnodup, horder⟩, hrest⟩ := List.forall_mem_cons.1 horders
    have hfree : ∀ other ∈ r.lifecycles, other.id ≠ l.id →
        l.claimedNames.Disjoint other.claimedNames := fun other hother =>
      (List.pairwise_append.1 hapart).2.2 other hother l List.mem_cons_self
    have hok := (h.register_eq_ok_iff l).2 ⟨hnodup, horder, hfree⟩
    obtain ⟨hsettled, hlifecycles⟩ := h.register hok
    have hnext : r.registerAll (l :: rest) = (r.register l).1.registerAll rest := by
      rw [registerAll]
      split
      next hfault => rw [hfault] at hok; cases hok
      next heq => rw [heq]
    rw [hnext]
    refine ih hsettled hrest (hapart.sublist ?_)
    rw [hlifecycles, List.append_assoc]
    exact List.filter_sublist.append (.refl _)

end LifecycleRegistry

namespace Standard

/-- The phases of each standard lifecycle can be ordered. -/
theorem exists_ofPhases {l : Lifecycle} (hl : l ∈ lifecycles) :
    ∃ order, PhaseOrder.ofPhases l.phases = .ok order := by
  have hall : ∀ l ∈ lifecycles, (Phase.names l.phases).Nodup ∧ Phase.LinksAgree l.phases ∧
      ∀ phase ∈ Phase.walkAll l.phases, ∀ link ∈ phase.links, link.kind = .after := by
    decide +kernel
  obtain ⟨hnodup, hlinks, hafter⟩ := hall l hl
  exact PhaseOrder.exists_ofPhases_iff.2 ⟨hnodup, hlinks, Phase.pairsAgree_of_after hafter⟩

/-- No two standard lifecycles claim the same name. -/
theorem nodup_claimedNames : (lifecycles.flatMap Lifecycle.claimedNames).Nodup := by
  decide +kernel

/-- The standard lifecycles are taken. -/
theorem exists_registerAll : ∃ r, LifecycleRegistry.registerAll {} lifecycles = .ok r := by
  refine
    LifecycleRegistry.settled_empty.exists_registerAll (fun l hl => ⟨?_, exists_ofPhases hl⟩) ?_
  · have := (List.nodup_flatMap.1 nodup_claimedNames).1 l hl
    exact this.of_append_left
  · refine (List.nodup_flatMap.1 nodup_claimedNames).2.imp fun hdisjoint _ => hdisjoint.symm

end Standard

/-- A manifest without lifecycles of its own has a registry. -/
theorem Manifest.exists_registry {m : Manifest} (h : m.lifecycles = []) :
    ∃ r, m.registry = .ok r := by
  obtain ⟨r, hr⟩ := Standard.exists_registerAll
  exact ⟨r, by rw [registry, hr]; simp [addLifecycles, h, LifecycleRegistry.registerAll]⟩

end PhasedBuild
