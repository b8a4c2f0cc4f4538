import Mathlib.Data.List.Dedup
import Mathlib.Data.List.Perm.Subperm
import PhasedBuild.Proofs.Plan.Offers

/-!
# How deep forked work is nested

No step is forked that its guard holds, so the steps along a chain of forks are distinct. All but
the first one are steps of the catalog, which bounds the length of the chain.

* `Execution.Chain`: the identities from an execution down to one that is forked for it, at any
  depth.
* `Planner.expandWithin` is the expansion with the guard as its only test, cut off at a depth.
* `Planner.expansion_ends`: cut off at the number of identities, it is the expansion itself, so the
  expansion ends without the test against the catalog that its definition has; and no chain has an
  identity twice.
-/

namespace PhasedBuild

namespace Planner

variable {p : Planner}

/-! ### Identities -/

variable (p) in
/-- The distinct identities of a step and of all steps of the catalog. -/
def keysFrom (step : Step) : List StepKey :=
  (step.key :: p.catalog.keys).dedup

variable (p) in
/-- The identities of the catalog that a guard does not hold, each once. -/
def openKeys (guard : ForkGuard) : List StepKey :=
  guard.unplanned p.catalog.keys.dedup

section keys

variable {guard : ForkGuard} {key : StepKey} {step : Step}

/-- The open identities are those of the catalog that the guard does not hold. -/
theorem mem_openKeys_iff :
    key ∈ p.openKeys guard ↔ key ∈ p.catalog.keys ∧ guard.contains key = false := by
  simp [openKeys, ForkGuard.unplanned, List.mem_dedup]

/-- The same identities limit how deep an expansion goes. -/
theorem mem_unplanned_iff :
    key ∈ guard.unplanned p.catalog.keys ↔ key ∈ p.catalog.keys ∧ guard.contains key = false := by
  simp [ForkGuard.unplanned]

/-- A guard that holds one more identity leaves no others open than before. -/
theorem mem_openKeys_of_insert {other : StepKey} (h : key ∈ p.openKeys (guard.insert other)) :
    key ∈ p.openKeys guard := by
  rw [mem_openKeys_iff, ForkGuard.contains_insert, Bool.or_eq_false_iff] at h
  exact mem_openKeys_iff.2 ⟨h.1, h.2.2⟩

/-- An identity that a chain may have is that of its first step or one of the catalog. -/
theorem mem_keysFrom_iff : key ∈ p.keysFrom step ↔ key = step.key ∨ key ∈ p.catalog.keys := by
  simp [keysFrom]

/-- Under a guard with a step there is one identity less. -/
theorem length_openKeys_lt_keysFrom (guard : ForkGuard) (step : Step) :
    (p.openKeys (guard.insert step.key)).length < (p.keysFrom step).length := by
  have hnodup : (step.key :: p.openKeys (guard.insert step.key)).Nodup := by
    refine List.nodup_cons.2 ⟨fun hmem => ?_, (List.nodup_dedup _).filter _⟩
    simpa using (mem_openKeys_iff.1 hmem).2
  refine (List.subperm_of_subset hnodup fun key hkey => mem_keysFrom_iff.2 ?_).length_le
  exact (List.mem_cons.1 hkey).imp_right fun hmem => (mem_openKeys_iff.1 hmem).1

end keys

/-! ### The recursion -/

/-- The expansion of a step of a unit under a guard. -/
abbrev Expander :=
  ForkGuard → BuildUnit → Step → Planning Execution

/-- The executions of forked steps on a unit, those of the guard being left out. Each of them is
expanded by `expand`. -/
def guardedSteps (expand : Expander) (guard : ForkGuard) (target : BuildUnit) :
    List PlannedStep → Planning (List Execution)
  | [] => return []
  | step :: rest =>
    if guard.contains step.key then guardedSteps expand guard target rest
    else do
      let execution ← expand (guard.insert step.key) target step.configure
      let others ← guardedSteps expand (guard.insert step.key) target rest
      return execution :: others

variable (p) in
/-- The forked work of a step on units, the steps of which are expanded by `expand`. -/
def guardedTargets (expand : Expander) (guard : ForkGuard) (parent : Step) (fork : ForkSpec) :
    List BuildUnit → Planning (List (Forked Execution))
  | [] => return []
  | target :: rest => do
    let steps ← p.forkedSteps parent target fork
    let executions ← guardedSteps expand guard target steps
    let others ← guardedTargets expand guard parent fork rest
    return if executions.isEmpty then others else ⟨target.id, executions⟩ :: others

variable (p) (units : UnitGraph)

/-- One level of the expansion: the steps that are forked for a step are expanded by `expand`. -/
def expandLevel (expand : Expander) : Expander := fun guard unit step =>
  match step.descriptor.fork with
  | none => return { step, forks := .notForking }
  | some fork => do
    let forked ← p.guardedTargets expand (guard.insert step.key) step fork
      (forkTargets units unit step.isAggregating)
    return { step, forks := .expanded forked }

/-- The first levels of the expansion. What is nested deeper is left to `cut`. -/
def expandWithin (cut : Expander) : Nat → Expander
  | 0 => cut
  | n + 1 => p.expandLevel units (expandWithin cut n)

variable {p units}

section levels

variable {expand : Expander} {n : Nat} {guard : ForkGuard}

/-- Holding an open identity leaves fewer of them open. -/
theorem length_openKeys_insert_lt {key : StepKey} (h : key ∈ p.openKeys guard) :
    (p.openKeys (guard.insert key)).length < (p.openKeys guard).length :=
  ForkGuard.length_unplanned_insert_lt h

/-- A list of forked steps is expanded as it should be if each step is that is not held. -/
theorem guardedSteps_eq
    (hexpand : ∀ guard unit step, (p.openKeys (guard.insert step.key)).length < n →
      expand guard unit step = p.expandStep units guard unit step)
    (target : BuildUnit) {steps : List PlannedStep} (hsteps : p.Offers steps)
    (hguard : (p.openKeys guard).length ≤ n) :
    guardedSteps expand guard target steps = p.expandSteps units guard target steps := by
  induction steps generalizing guard with
  | nil => rw [guardedSteps, expandSteps]
  | cons step rest ih =>
    obtain ⟨hstep, hrest⟩ := List.forall_mem_cons.1 hsteps
    rw [guardedSteps, expandSteps]
    by_cases hheld : guard.contains step.key = true
    · rw [if_pos hheld, dif_neg fun hmem => by simp [(mem_unplanned_iff.1 hmem).2] at hheld]
      exact ih hrest hguard
    · have hnew : guard.contains step.key = false := by simpa using hheld
      have hlt := length_openKeys_insert_lt (mem_openKeys_iff.2 ⟨hstep, hnew⟩)
      have hexpanded := hexpand (guard.insert step.key) target step.configure (by
        rw [show step.configure.key = step.key from rfl, ForkGuard.insert_insert_self]
        exact Nat.lt_of_lt_of_le hlt hguard)
      rw [if_neg hheld, dif_pos (mem_unplanned_iff.2 ⟨hstep, hnew⟩), hexpanded,
        ih hrest (Nat.le_trans (Nat.le_of_lt hlt) hguard)]

/-- The forked work on units is expanded as it should be if each step is that is not held. -/
theorem guardedTargets_eq
    (hexpand : ∀ guard unit step, (p.openKeys (guard.insert step.key)).length < n →
      expand guard unit step = p.expandStep units guard unit step)
    (parent : Step) (fork : ForkSpec) (targets : List BuildUnit)
    (hguard : (p.openKeys guard).length ≤ n) :
    p.guardedTargets expand guard parent fork targets =
      p.expandTargets units guard parent fork targets := by
  induction targets with
  | nil => rw [guardedTargets, expandTargets]
  | cons target rest ih =>
    rw [guardedTargets, expandTargets, ih]
    refine Planning.bind_congr_of_yields fun steps hsteps => ?_
    obtain ⟨log, hsteps⟩ := hsteps
    have hoffers := (offers_forkedSteps parent target fork log trivial).2 steps hsteps
    rw [guardedSteps_eq hexpand target hoffers hguard]

/-- As many levels as there are open identities are enough, whatever comes after them. -/
theorem expandWithin_eq {cut : Expander} {guard : ForkGuard} {unit : BuildUnit} {step : Step}
    (h : (p.openKeys (guard.insert step.key)).length < n) :
    p.expandWithin units cut n guard unit step = p.expandStep units guard unit step := by
  induction n generalizing guard unit step with
  | zero => exact absurd h (Nat.not_lt_zero _)
  | succ n ih =>
    rw [expandWithin, expandLevel, expandStep]
    rcases step.descriptor.fork with _ | fork
    · rfl
    · dsimp only
      rw [guardedTargets_eq (fun guard unit step h => ih h) step fork _ (Nat.le_of_lt_succ h)]

end levels

end Planner

/-! ### Chains of forks -/

namespace Execution

/-- The identities from an execution down to itself or to one that is forked for it, each of them
forked for the one before it. -/
inductive Chain : Execution → List StepKey → Prop where
  | self (e : Execution) : Chain e [e.step.key]
  | fork {e inner : Execution} {forked : Forked Execution} {keys : List StepKey}
      (hforked : forked ∈ e.forkedUnits) (hinner : inner ∈ forked.executions)
      (hkeys : inner.Chain keys) : Chain e (e.step.key :: keys)

/-- No chain from an execution has an identity twice, and all that they have are of one kind. -/
def ChainsIn (e : Execution) (kind : StepKey → Prop) : Prop :=
  ∀ keys, e.Chain keys → keys.Nodup ∧ ∀ key ∈ keys, kind key

/-- The identities on chains are of any weaker kind as well. -/
theorem ChainsIn.imp {e : Execution} {kind other : StepKey → Prop} (h : e.ChainsIn kind)
    (hkind : ∀ key, kind key → other key) : e.ChainsIn other := fun keys hkeys =>
  ⟨(h keys hkeys).1, fun key hkey => hkind key ((h keys hkeys).2 key hkey)⟩

/-- The chains from an execution are those from all that it forks with its own identity in front. -/
theorem chainsIn_of_forkedUnits {e : Execution} {kind : StepKey → Prop}
    (hself : ¬ kind e.step.key)
    (h : ∀ forked ∈ e.forkedUnits, ∀ inner ∈ forked.executions, inner.ChainsIn kind) :
    e.ChainsIn fun key => key = e.step.key ∨ kind key := by
  intro keys hkeys
  cases hkeys with
  | self => exact ⟨List.nodup_singleton _, fun key hkey => .inl (List.mem_singleton.1 hkey)⟩
  | fork hforked hinner hkeys =>
    obtain ⟨hnodup, hkind⟩ := h _ hforked _ hinner _ hkeys
    refine ⟨List.nodup_cons.2 ⟨fun hmem => hself (hkind _ hmem), hnodup⟩, fun key hkey => ?_⟩
    exact (List.mem_cons.1 hkey).imp_right (hkind key)

end Execution

namespace Planner

variable {p : Planner} {units : UnitGraph}

/-- The chains from an execution begin with its own identity, and go on along chains that do not
have it. -/
theorem chainsIn_of_guarded {guard : ForkGuard} {e : Execution}
    (h : ∀ forked ∈ e.forkedUnits, ∀ inner ∈ forked.executions,
      inner.ChainsIn (· ∈ p.openKeys (guard.insert e.step.key))) :
    e.ChainsIn fun key => key = e.step.key ∨ key ∈ p.openKeys (guard.insert e.step.key) :=
  Execution.chainsIn_of_forkedUnits
    (fun hmem => by simpa using (mem_openKeys_iff.1 hmem).2) h

/-- What is forked for steps has only identities that their guards do not hold. -/
theorem chainsIn_of_yields :
    (∀ guard unit step e, (p.expandStep units guard unit step).Yields e → e.step = step ∧
      e.ChainsIn fun key => key = step.key ∨ key ∈ p.openKeys (guard.insert step.key)) ∧
    (∀ guard parent fork targets units',
      (p.expandTargets units guard parent fork targets).Yields units' →
        ∀ forked ∈ units', ∀ inner ∈ forked.executions, inner.ChainsIn (· ∈ p.openKeys guard)) ∧
    (∀ guard target steps executions, (p.expandSteps units guard target steps).Yields executions →
      ∀ inner ∈ executions, inner.ChainsIn (· ∈ p.openKeys guard)) := by
  -- the induction goes the way of the expansion
  refine Planner.expandStep.mutual_induct p units _ _ _ ?_ ?_ ?_ ?_ ?_ ?_ ?_
  · intro guard unit step hfork e h
    rw [expandStep, hfork] at h
    obtain rfl := Planning.yields_pure_iff.1 h
    exact ⟨rfl, chainsIn_of_guarded fun _ hforked => absurd hforked List.not_mem_nil⟩
  · intro guard unit step fork hfork ih e h
    rw [expandStep, hfork] at h
    obtain ⟨forked, hforked, h⟩ := h.bind
    obtain rfl := Planning.yields_pure_iff.1 h
    exact ⟨rfl, chainsIn_of_guarded (ih forked hforked)⟩
  · intro guard parent fork forked h
    rw [expandTargets] at h
    obtain rfl := Planning.yields_pure_iff.1 h
    exact fun _ hforked => absurd hforked List.not_mem_nil
  · intro guard parent fork target rest ihsteps ihrest forked h
    rw [expandTargets] at h
    obtain ⟨steps, -, h⟩ := h.bind
    obtain ⟨executions, hexecutions, h⟩ := h.bind
    obtain ⟨others, hothers, h⟩ := h.bind
    obtain rfl := Planning.yields_pure_iff.1 h
    split
    next => exact ihrest others hothers
    next =>
      exact List.forall_mem_cons.2 ⟨ihsteps steps executions hexecutions, ihrest others hothers⟩
  · intro guard target executions h
    rw [expandSteps] at h
    obtain rfl := Planning.yields_pure_iff.1 h
    exact fun _ hinner => absurd hinner List.not_mem_nil
  · intro guard target step rest hmem ihstep ihrest executions h
    rw [expandSteps, dif_pos hmem] at h
    obtain ⟨execution, hexecution, h⟩ := h.bind
    obtain ⟨others, hothers, h⟩ := h.bind
    obtain rfl := Planning.yields_pure_iff.1 h
    have hopen : step.key ∈ p.openKeys guard := mem_openKeys_iff.2 (mem_unplanned_iff.1 hmem)
    obtain ⟨-, hchains⟩ := ihstep execution hexecution
    refine List.forall_mem_cons.2 ⟨hchains.imp ?_, fun inner hinner => ?_⟩
    · rintro key (rfl | hkey)
      · exact hopen
      · exact mem_openKeys_of_insert (mem_openKeys_of_insert hkey)
    · exact (ihrest others hothers inner hinner).imp fun _ => mem_openKeys_of_insert
  · intro guard target step rest hmem ihrest executions h
    rw [expandSteps, dif_neg hmem] at h
    exact ihrest executions h

/-! ### Depth -/

variable (p units)

/-- The expansion of an execution, cut off at a depth. -/
def expandUpTo (cut : Expander) (n : Nat) (unit : BuildUnit) (execution : Execution) :
    Planning Execution :=
  match execution.forks with
  | .pending => p.expandWithin units cut n {} unit execution.step
  | .notForking => return execution
  | .expanded _ => return execution

/-- The recursion ends: nothing is nested deeper than there are identities, as whatever would be
asked for there makes no difference. An expansion has no chain of forks with an identity twice, and
an execution that has been expanded before is left as it is. -/
theorem expansion_ends (unit : BuildUnit) (execution : Execution) :
    (∀ cut n, (p.keysFrom execution.step).length ≤ n →
      p.expandUpTo units cut n unit execution = p.expand units unit execution) ∧
    ∀ log e, ((p.expand units unit execution).runWith log).1 = .ok e →
      (execution.forks ≠ .pending → e = execution) ∧
      (execution.forks = .pending → e.step = execution.step ∧ ∀ keys, e.Chain keys →
        keys.Nodup ∧ keys ⊆ p.keysFrom execution.step ∧
          keys.length ≤ (p.keysFrom execution.step).length) := by
  obtain ⟨step, forks⟩ := execution
  cases forks with
  | pending =>
    refine ⟨fun cut n hn => ?_, fun log e h => ⟨fun hne => absurd rfl hne, fun _ => ?_⟩⟩
    · exact expandWithin_eq (Nat.lt_of_lt_of_le (length_openKeys_lt_keysFrom {} step) hn)
    · obtain ⟨hstep, hchains⟩ := chainsIn_of_yields.1 {} unit step e ⟨log, h⟩
      refine ⟨hstep, fun keys hkeys => ?_⟩
      obtain ⟨hnodup, hkind⟩ := hchains keys hkeys
      have hsub : keys ⊆ p.keysFrom step := fun key hkey =>
        mem_keysFrom_iff.2 ((hkind key hkey).imp_right fun hopen => (mem_openKeys_iff.1 hopen).1)
      exact ⟨hnodup, hsub, (List.subperm_of_subset hnodup hsub).length_le⟩
  | notForking =>
    refine ⟨fun _ _ _ => rfl, fun log e h => ⟨fun _ => ?_, fun hpending => nomatch hpending⟩⟩
    exact Planning.yields_pure_iff.1 ⟨log, h⟩
  | expanded =>
    refine ⟨fun _ _ _ => rfl, fun log e h => ⟨fun _ => ?_, fun hpending => nomatch hpending⟩⟩
    exact Planning.yields_pure_iff.1 ⟨log, h⟩

end Planner

end PhasedBuild
