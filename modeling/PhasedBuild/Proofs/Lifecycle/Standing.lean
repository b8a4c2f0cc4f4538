import Mathlib.Data.List.Permutation
import PhasedBuild.Proofs.Lifecycle.Registry
import PhasedBuild.Proofs.Phase.Order

/-!
# Lifecycles that stand

A lifecycle stands until another one of its id is registered. As long as no registration is refused,
a registry answers as the standing lifecycles declare, however often some have been replaced.

* `Lifecycle.standing`: the lifecycles that stand after registrations.
* `LifecycleRegistry.settled_registerAll`: registrations that are not refused leave the registry
  settled, with these lifecycles in it.
* `LifecycleRegistry.registry_answers_as_declared`: what its answers are, and which lifecycle it
  takes next.
-/

namespace PhasedBuild

/-- The lifecycles of a list that no later one of the same id replaces. -/
def Lifecycle.standing : List Lifecycle → List Lifecycle
  | [] => []
  | l :: rest => if l.id ∈ rest.map (·.id) then standing rest else l :: standing rest

/-! ### Repeated phases -/

/-- No name is repeated if none comes twice and none has been seen before. -/
theorem Phase.repeated_eq_nil_iff {seen names : List String} (hseen : seen.Nodup) :
    repeated seen names = [] ↔ names.Nodup ∧ names.Disjoint seen := by
  induction names generalizing seen with
  | nil => simp [repeated]
  | cons name rest ih =>
    unfold repeated
    by_cases hname : name ∈ seen
    · rw [if_pos (List.count_eq_one_of_mem hseen hname)]
      simp [hname]
    · rw [if_neg (by simp [List.count_eq_zero_of_not_mem hname]),
        ih (List.nodup_cons.2 ⟨hname, hseen⟩), List.nodup_cons, List.disjoint_cons_right,
        List.disjoint_cons_left]
      tauto

/-- A lifecycle has no duplicate phases exactly if its phase names are distinct. -/
theorem Lifecycle.duplicatePhases_eq_nil_iff {l : Lifecycle} :
    l.duplicatePhases = [] ↔ l.phaseNames.Nodup := by
  rw [duplicatePhases, Phase.repeated_eq_nil_iff .nil]
  exact and_iff_left (List.disjoint_nil_right _)

namespace LifecycleRegistry

variable {r : LifecycleRegistry} {l : Lifecycle}

/-! ### Registrations that are not refused -/

/-- The conditions under which a settled registry takes a lifecycle. -/
theorem Settled.register_eq_ok_iff (h : r.Settled) (l : Lifecycle) :
    (r.register l).2 = .ok () ↔ l.phaseNames.Nodup ∧
      (∃ order, PhaseOrder.ofPhases l.phases = .ok order) ∧
      ∀ other ∈ r.lifecycles, other.id ≠ l.id →
        l.claimedNames.Disjoint other.claimedNames := by
  rw [← Lifecycle.duplicatePhases_eq_nil_iff]
  by_cases hl : l.duplicatePhases = []
  · rcases h.register_cases hl with ⟨order, horder, hapart, heq, -⟩ | ⟨hnot, r', fault, heq⟩
    · rw [heq]
      exact iff_of_true rfl ⟨hl, ⟨order, horder⟩, hapart⟩
    · rw [heq]
      exact iff_of_false nofun fun h => hnot h.2
  · obtain ⟨fault, heq⟩ := r.register_of_duplicatePhases hl
    rw [heq]
    exact iff_of_false nofun fun h => hl h.1

/-- A lifecycle that is not refused takes the place at the end. -/
theorem Settled.register (h : r.Settled) (hok : (r.register l).2 = .ok ()) :
    (r.register l).1.Settled ∧
      (r.register l).1.lifecycles = r.lifecycles.filter (·.id != l.id) ++ [l] := by
  have hl := Lifecycle.duplicatePhases_eq_nil_iff.2 ((h.register_eq_ok_iff l).1 hok).1
  rcases h.register_cases hl with ⟨order, -, -, heq, hsettled⟩ | ⟨-, r', fault, heq⟩
  · rw [heq]
    exact ⟨hsettled, congrArg (· ++ [l]) (h.sound.lifecycles_without l.id)⟩
  · rw [heq] at hok
    cases hok

/-- After registrations that all succeed, the registry has those of its lifecycles that have not
been replaced and then the new ones that stand. -/
theorem settled_registerAll (h : r.Settled) {declared : List Lifecycle} {r' : LifecycleRegistry}
    (hr' : r.registerAll declared = .ok r') :
    r'.Settled ∧ r'.lifecycles =
      r.lifecycles.filter (fun l => l.id ∉ declared.map (·.id)) ++ Lifecycle.standing declared := by
  induction declared generalizing r with
  | nil =>
    obtain rfl := Except.ok.inj hr'
    exact ⟨h, by simp [Lifecycle.standing]⟩
  | cons l rest ih =>
    unfold registerAll at hr'
    split at hr'
    next => cases hr'
    next next hnext =>
      have hok : (r.register l).2 = .ok () := by rw [hnext]
      obtain ⟨hsettled, hlifecycles⟩ := h.register hok
      rw [hnext] at hsettled hlifecycles
      obtain ⟨hfinal, heq⟩ := ih hsettled hr'
      refine ⟨hfinal, heq.trans ?_⟩
      have hkept : ∀ other : Lifecycle,
          (decide (other.id ∉ rest.map (·.id)) && (other.id != l.id)) =
            decide (other.id ∉ (l :: rest).map (·.id)) := fun other => by
        by_cases hid : other.id = l.id <;> simp [hid]
      rw [hlifecycles, List.filter_append, List.filter_filter, List.append_assoc,
        funext hkept]
      congr 1
      by_cases hid : l.id ∈ rest.map (·.id)
      · rw [Lifecycle.standing, if_pos hid, List.filter_cons_of_neg (by simpa using hid)]
        rfl
      · rw [Lifecycle.standing, if_neg hid, List.filter_cons_of_pos (by simpa using hid)]
        rfl

/-! ### Answers -/

/-- The lifecycle of a name is the one that declares it as a phase or as an alias. -/
theorem Settled.lifecycleOf_eq_ok_iff (h : r.Settled) {name : String} :
    r.lifecycleOf name = .ok l ↔ l ∈ r.lifecycles ∧ name ∈ l.claimedNames := by
  rw [LifecycleRegistry.lifecycleOf_eq_ok_iff]
  constructor
  · rintro ⟨i, howner, hl⟩
    obtain ⟨other, hother, hname⟩ := (h.indexes.owner_iff name i).1 howner
    obtain rfl := Option.some.inj (hother.symm.trans hl)
    exact ⟨List.mem_of_getElem? hl, hname⟩
  · rintro ⟨hl, hname⟩
    obtain ⟨i, hi, rfl⟩ := List.getElem_of_mem hl
    have hget := List.getElem?_eq_getElem hi
    exact ⟨i, (h.indexes.owner_iff name i).2 ⟨_, hget, hname⟩, hget⟩

/-- The registry has the order of each of its lifecycles. -/
theorem Sound.order_eq (h : r.Sound) (hl : l ∈ r.lifecycles) :
    ∃ order, PhaseOrder.ofPhases l.phases = .ok order ∧ r.order l.id = .ok order := by
  obtain ⟨order, horder, hfind⟩ := h.order_of_mem l hl
  exact ⟨order, horder, by rw [LifecycleRegistry.order, hfind]⟩

/-- The registry has no order for an id that it does not have. -/
theorem Sound.order_of_unknown (h : r.Sound) {id : String} (hid : id ∉ r.ids) :
    r.order id = .error (Fault.unknownLifecycle id) := by
  rw [LifecycleRegistry.order, h.order_of_notMem id hid]

/-- A registry that has refused no lifecycle holds those that stand. Their ids are distinct, each
name belongs to the one of them that declares it as a phase or an alias, each has the order of its
phases, and bare names are read by their aliases, of which the last for a name counts. It takes a
lifecycle exactly when this one repeats no phase, has an order, and has no name in common with
another one of a different id. -/
theorem registry_answers_as_declared (declared : List Lifecycle) (r : LifecycleRegistry)
    (h : ({} : LifecycleRegistry).registerAll declared = .ok r) :
    r.lifecycles = Lifecycle.standing declared ∧
    r.ids.Nodup ∧
    (∀ name l, r.lifecycleOf name = .ok l ↔ l ∈ r.lifecycles ∧ name ∈ l.claimedNames) ∧
    (∀ l ∈ r.lifecycles,
      ∃ order, PhaseOrder.ofPhases l.phases = .ok order ∧ r.order l.id = .ok order) ∧
    (∀ id, id ∉ r.ids → r.order id = .error (Fault.unknownLifecycle id)) ∧
    (∀ raw, r.resolve raw =
      if (PhaseRef.parse raw).side = .during then
        (Alias.target? (r.lifecycles.flatMap (·.aliases)) (PhaseRef.parse raw).phase).getD
          (PhaseRef.parse raw)
      else PhaseRef.parse raw) ∧
    ∀ l, (r.register l).2 = .ok () ↔ l.phaseNames.Nodup ∧
      (∃ order, PhaseOrder.ofPhases l.phases = .ok order) ∧
      ∀ other ∈ r.lifecycles, other.id ≠ l.id →
        l.claimedNames.Disjoint other.claimedNames := by
  obtain ⟨hsettled, hlifecycles⟩ := settled_registerAll settled_empty h
  refine ⟨hlifecycles, hsettled.sound.nodup_ids, fun _ _ => hsettled.lifecycleOf_eq_ok_iff,
    fun _ => hsettled.sound.order_eq, fun _ => hsettled.sound.order_of_unknown, fun raw => ?_,
    hsettled.register_eq_ok_iff⟩
  simp only [resolve, hsettled.sound.alias_eq]

end LifecycleRegistry

/-! ### A site that is declared twice -/

namespace Site

/-- The site is declared anew: it is published only, under two older names, one of which has been
given two targets. -/
def redeclared : Lifecycle where
  id := "site"
  phases := [{ name := "publish" }]
  aliases := [⟨"website", "publish"⟩, ⟨"upload", "publish"⟩, ⟨"website", "before:publish"⟩]

/-- What is left behind is cleaned. -/
def cleaning : Lifecycle where
  id := "clean"
  phases := [{ name := "wash" }]

/-- All that is registered, in its order. -/
def declared : List Lifecycle :=
  [{ id := "site", phases := [{ name := "render" }], aliases := [⟨"upload", "after:render"⟩] },
    cleaning, redeclared]

end Site

/-- The site is declared twice, and stands as it was declared last. -/
theorem LifecycleRegistry.answers_of_redeclared_site :
    registerAll {} Site.declared = .ok (after {} Site.declared) ∧
      (after {} Site.declared).lifecycles = [Site.cleaning, Site.redeclared] ∧
      (after {} Site.declared).lifecycleOf "upload" = .ok Site.redeclared ∧
      (after {} Site.declared).resolve "website" = ⟨.before, "publish"⟩ := by
  have h : registerAll {} Site.declared = .ok (after {} Site.declared) := by cbv
  obtain ⟨hlifecycles, -, hlifecycleOf, -, -, hresolve, -⟩ := registry_answers_as_declared _ _ h
  have hstanding : (after {} Site.declared).lifecycles =
      [Site.cleaning, Site.redeclared] := hlifecycles.trans rfl
  refine ⟨h, hstanding, (hlifecycleOf _ _).2 ⟨by simp [hstanding], by decide⟩, ?_⟩
  rw [hresolve, hstanding]
  decide

end PhasedBuild
