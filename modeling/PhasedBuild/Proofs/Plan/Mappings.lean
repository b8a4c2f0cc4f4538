import Mathlib
import PhasedBuild.Proofs.Plan.Planning
import PhasedBuild.Proofs.Sorting

/-!
# The steps of a phase

The mappings of a request are the bindings of the unit up to the requested execution point, in the
order of the execution points and, at one of them, of their priorities.

* `Planner.Request` is a request as it is read: a lifecycle, its order, a position in it and all the
  bindings of the unit.
* `Planner.Arranges` says what the mappings of a request are.
* `Planner.mappings_arrange_bindings`: they are that, and those of an earlier execution point are
  the beginning of those of a later one.
-/

namespace PhasedBuild

namespace Planner

variable (p : Planner)

/-- A request for a phase of a unit, as the planner reads it. -/
structure Request where
  lifecycle : Lifecycle
  order : PhaseOrder
  /-- The position of the last execution point. -/
  last : Nat
  /-- All bindings of the unit for the lifecycle, in the order of their declaration. -/
  bindings : List StepBinding

/-- How a text is read as a request of a unit. -/
structure Requests (unit : BuildUnit) (raw : String) (request : Request) : Prop where
  lifecycle : p.registry.lifecycleOf (p.registry.resolve raw).phase = .ok request.lifecycle
  order : p.registry.order request.lifecycle.id = .ok request.order
  last : request.order.position? (lastPoint (p.registry.resolve raw)) = some request.last
  bindings : ∀ log, ((p.bindings unit request.lifecycle).runWith log).1 = .ok request.bindings

/-- A binding with the position of its execution point, if it has one up to the last one. -/
def placed? (request : Request) (binding : StepBinding) : Option (Nat × StepBinding) :=
  binding.phase.bind fun phase =>
    ((request.order.position? (p.registry.resolve phase)).filter (· ≤ request.last)).map
      (·, binding)

/-- What placed bindings are sorted by: the position, then the priority. -/
def sortKey (placed : Nat × StepBinding) : ℕ ×ₗ ℤ :=
  toLex (placed.1, placed.2.priority)

/-- A step is that of a placed binding. -/
def IsStepOf (placed : Nat × StepBinding) (step : PlannedStep) : Prop :=
  p.stepOf .lifecycle placed.2 = .ok step

/-- Mappings consist of the bindings of a request, which are sorted and then parted by their
execution points. -/
structure Arranges (request : Request) (sorted : List (Nat × StepBinding)) (m : Mappings) :
    Prop where
  lifecycle : m.lifecycle = request.lifecycle.id
  stable : IsStableSort sortKey (request.bindings.filterMap (p.placed? request)) sorted
  /-- Nothing else is run, and in this order. -/
  steps : List.Forall₂ p.IsStepOf sorted m.steps
  points : m.entries.map (·.1) = request.order.points.take (request.last + 1)
  /-- The steps of each execution point are those of the bindings at its position. -/
  entry : ∀ i entry, m.entries[i]? = some entry →
    List.Forall₂ p.IsStepOf (sorted.filter (·.1 = i)) entry.2
  /-- The position of a binding is that of its own execution point. -/
  own : ∀ placed ∈ sorted, placed.1 ≤ request.last ∧ ∃ phase, placed.2.phase = some phase ∧
    request.order.points[placed.1]? = some (p.registry.resolve phase)

variable {p}

/-- Placed bindings are compared by their positions, and at one position by their priorities. -/
theorem precedes_iff {a b : Nat × StepBinding} :
    precedes a b = true ↔ sortKey a ≤ sortKey b := by
  rw [sortKey, sortKey, Prod.Lex.toLex_le_toLex]
  simp [precedes]

/-- A binding is placed exactly if it names an execution point of the order that is not after the
last one. -/
theorem placed?_eq_some_iff {request : Request} {binding : StepBinding}
    {placed : Nat × StepBinding} :
    p.placed? request binding = some placed ↔ placed.2 = binding ∧ placed.1 ≤ request.last ∧
      ∃ phase, binding.phase = some phase ∧
        request.order.position? (p.registry.resolve phase) = some placed.1 := by
  obtain ⟨i, other⟩ := placed
  simp only [placed?, Option.bind_eq_some_iff, Option.map_eq_some_iff, Option.filter_eq_some_iff,
    Prod.mk.injEq, decide_eq_true_eq]
  constructor
  · rintro ⟨phase, hphase, j, ⟨hposition, hle⟩, rfl, rfl⟩
    exact ⟨rfl, hle, phase, hphase, hposition⟩
  · rintro ⟨rfl, hle, phase, hphase, hposition⟩
    exact ⟨phase, hphase, i, ⟨hposition, hle⟩, rfl, rfl⟩

/-! ### The computation -/

/-- Which bindings a unit has does not depend on the log. -/
theorem onlyReports_bindings (unit : BuildUnit) (lifecycle : Lifecycle) :
    (p.bindings unit lifecycle).OnlyReports := by
  refine .bind (.bind (.warn _) fun _ => .pure _) fun fromLifecycle => ?_
  have hpackaging : (p.packagingBindings unit lifecycle).OnlyReports := by
    unfold packagingBindings
    split
    · split
      · exact .throw _
      · exact .bind (.warn _) fun _ => .pure _
    · exact .pure _
  refine hpackaging.bind fun fromPackaging => ?_
  have hdeclared : (bindings.liftExcept (p.declaredBindings unit)).OnlyReports :=
    ⟨p.declaredBindings unit, fun log => ⟨log.warnings, rfl⟩⟩
  exact hdeclared.bind fun _ => .pure _

/-- Placing a binding comes to its position. -/
theorem ensures_place? (request : Request) (binding : StepBinding) :
    Planning.Ensures p.Remembers (p.place? request.order request.last binding)
      (· = p.placed? request binding) := by
  unfold place? placed?
  split
  next hphase => exact .pure (by rw [hphase]; rfl)
  next phase hphase =>
    refine (p.ensures_resolveRef phase).bind fun point hpoint => .pure ?_
    rw [hpoint, hphase]
    rfl

/-- Placing bindings comes to the positions of all of them. -/
theorem ensures_mapM_place? (request : Request) (bindings : List StepBinding) :
    Planning.Ensures p.Remembers (bindings.mapM (p.place? request.order request.last))
      (· = bindings.map (p.placed? request)) := by
  have hplaced : Planning.Ensures p.Remembers
      (bindings.mapM (p.place? request.order request.last))
      (List.Forall₂ (fun binding placed => placed = p.placed? request binding) bindings) :=
    .mapM fun binding _ => ensures_place? request binding
  refine hplaced.imp fun placed h => ?_
  rw [← List.forall₂_eq_eq_eq, List.forall₂_map_right_iff]
  exact h.flip

/-- The entries of the mappings that steps with their positions make. -/
def entriesOf (request : Request) (steps : List (Nat × PlannedStep)) :
    List (PhaseRef × List PlannedStep) :=
  (request.order.points.take (request.last + 1)).zipIdx.map fun (point, i) =>
    (point, (steps.filter (·.1 = i)).map (·.2))

/-- A step with its position is that of a placed binding. -/
def IsPlacedStepOf (p : Planner) (placed : Nat × StepBinding) (step : Nat × PlannedStep) : Prop :=
  step.1 = placed.1 ∧ p.IsStepOf placed step.2

/-- The steps that are made of placed bindings are theirs, in the same order. -/
theorem ensures_mapM_stepOf {invariant : PlanningLog → Prop} (unit : BuildUnit)
    (sorted : List (Nat × StepBinding)) :
    Planning.Ensures invariant
      (sorted.mapM fun (position, binding) =>
        match p.stepOf .lifecycle binding with
        | .ok step => pure (position, step)
        | .error e => throw (e.withUnit unit.id))
      (List.Forall₂ p.IsPlacedStepOf sorted) := by
  refine .mapM fun ⟨position, binding⟩ _ => ?_
  dsimp only
  split
  next step hstep => exact .pure ⟨rfl, hstep⟩
  next => exact .throw _

/-- The computation of mappings comes to those of the sorted bindings of its request. -/
theorem ensures_mappings (p : Planner) (unit : BuildUnit) (raw : String) :
    Planning.Ensures p.Remembers (p.mappings unit raw) fun m =>
      ∃ request steps, p.Requests unit raw request ∧
        List.Forall₂ p.IsPlacedStepOf
          ((request.bindings.filterMap (p.placed? request)).mergeSort precedes) steps ∧
        m = ⟨request.lifecycle.id, entriesOf request steps⟩ := by
  refine (p.ensures_resolveRef raw).bind ?_
  rintro requested rfl
  dsimp only
  -- an error in one of the three questions about the request ends the computation
  split
  case h_2 => exact .throw_bind
  case h_1 lifecycle hlifecycle =>
  rw [pure_bind]
  split
  case h_2 => exact .throw_bind
  case h_1 order horder =>
  rw [pure_bind]
  split
  case h_2 => exact .throw_bind
  case h_1 last hlast =>
  rw [pure_bind]
  have hbindings : (p.bindings unit lifecycle).OnlyReports := onlyReports_bindings unit lifecycle
  refine (p.ensures_of_onlyReports hbindings).bind fun bindings hyields => ?_
  let request : Request := ⟨lifecycle, order, last, bindings⟩
  refine (ensures_mapM_place? request bindings).bind fun placed hplaced => ?_
  refine (ensures_mapM_stepOf unit _).bind fun steps hsteps => .pure ?_
  rw [hplaced, List.filterMap_map, Function.id_comp] at hsteps
  exact ⟨request, steps, ⟨hlifecycle, horder, hlast, hbindings.result_eq hyields⟩, hsteps, rfl⟩

/-! ### Their arrangement -/

section arrangement

variable {request : Request} {sorted : List (Nat × StepBinding)} {steps : List (Nat × PlannedStep)}

/-- A request ends at one of the points of its order. -/
theorem last_lt {unit : BuildUnit} {raw : String} (h : p.Requests unit raw request) :
    request.last < request.order.points.length :=
  (List.getElem?_eq_some_iff.1 (PhaseOrder.getElem?_of_position? h.last)).1

/-- The steps at a position are those of the bindings there. -/
theorem forall₂_filter (h : List.Forall₂ p.IsPlacedStepOf sorted steps) (i : Nat) :
    List.Forall₂ p.IsStepOf (sorted.filter (·.1 = i)) ((steps.filter (·.1 = i)).map (·.2)) := by
  have hfilter : List.Forall₂ p.IsPlacedStepOf (sorted.filter (·.1 = i))
      (steps.filter (·.1 = i)) := by
    refine List.rel_filter (fun placed step hstep => ?_) h
    simp [hstep.1]
  rw [List.forall₂_map_right_iff]
  exact hfilter.imp fun _ _ hstep => hstep.2

/-- There is one entry for each point up to the last one, with the steps that have its position. -/
theorem getElem?_entriesOf_eq_some_iff {i : Nat} {entry : PhaseRef × List PlannedStep} :
    (entriesOf request steps)[i]? = some entry ↔
      i ≤ request.last ∧ request.order.points[i]? = some entry.1 ∧
        entry.2 = (steps.filter (·.1 = i)).map (·.2) := by
  obtain ⟨point, found⟩ := entry
  simp only [entriesOf, List.getElem?_map, List.getElem?_zipIdx, List.getElem?_take,
    Option.map_map, Option.map_eq_some_iff, Nat.lt_succ_iff, Option.ite_none_right_eq_some,
    Function.comp_apply, Prod.mk.injEq, Nat.zero_add]
  constructor
  · rintro ⟨point, ⟨hle, hpoint⟩, rfl, rfl⟩
    exact ⟨hle, hpoint, rfl⟩
  · rintro ⟨hle, hpoint, rfl⟩
    exact ⟨point, ⟨hle, hpoint⟩, rfl, rfl⟩

/-- The entries together have the steps of the positions, one after the other. -/
theorem flatMap_entriesOf (h : request.last < request.order.points.length) :
    (entriesOf request steps).flatMap (·.2) =
      (List.range (request.last + 1)).flatMap fun i => (steps.filter (·.1 = i)).map (·.2) := by
  have hpositions : (request.order.points.take (request.last + 1)).zipIdx.map (·.2) =
      List.range (request.last + 1) := by
    rw [List.zipIdx_map_snd, List.length_take, min_eq_left h, ← List.range_eq_range']
  rw [← hpositions, List.flatMap_map, entriesOf, List.flatMap_map]

/-- The parts for the positions, one after the other, are all that is sorted. -/
theorem forall₂_flatMap_entriesOf (h : List.Forall₂ p.IsPlacedStepOf sorted steps)
    (hlast : request.last < request.order.points.length)
    (hpairwise : sorted.Pairwise fun a b => a.1 ≤ b.1)
    (hle : ∀ placed ∈ sorted, placed.1 ≤ request.last) :
    List.Forall₂ p.IsStepOf sorted ((entriesOf request steps).flatMap (·.2)) := by
  rw [flatMap_entriesOf hlast]
  nth_rewrite 1 [← flatMap_filter_range hpairwise fun placed hplaced =>
    Nat.lt_succ_of_le (hle placed hplaced)]
  refine List.rel_flatMap (R := Eq) (List.forall₂_refl _) ?_
  rintro i _ rfl
  exact forall₂_filter h i

/-- Sorted bindings with their steps are arranged. -/
theorem arranges_of_forall₂ {unit : BuildUnit} {raw : String} (h : p.Requests unit raw request)
    (hsteps : List.Forall₂ p.IsPlacedStepOf
      ((request.bindings.filterMap (p.placed? request)).mergeSort precedes) steps) :
    p.Arranges request ((request.bindings.filterMap (p.placed? request)).mergeSort precedes)
      ⟨request.lifecycle.id, entriesOf request steps⟩ := by
  set sorted := (request.bindings.filterMap (p.placed? request)).mergeSort precedes
  have hstable : IsStableSort sortKey (request.bindings.filterMap (p.placed? request)) sorted :=
    isStableSort_mergeSort (fun a b => precedes_iff (a := a) (b := b)) _
  have hmem : ∀ placed ∈ sorted, p.placed? request placed.2 = some placed := by
    intro placed hplaced
    obtain ⟨binding, -, hbinding⟩ := List.mem_filterMap.1 (hstable.perm.mem_iff.1 hplaced)
    rwa [(placed?_eq_some_iff.1 hbinding).1]
  refine ⟨rfl, hstable, ?_, ?_, ?_, ?_⟩
  · refine forall₂_flatMap_entriesOf hsteps (last_lt h) ?_ fun placed hplaced => ?_
    · exact hstable.pairwise.imp fun hle => Prod.Lex.monotone_fst _ _ hle
    · exact (placed?_eq_some_iff.1 (hmem placed hplaced)).2.1
  · rw [entriesOf, List.map_map]
    exact List.zipIdx_map_fst _ _
  · intro i entry hentry
    rw [(getElem?_entriesOf_eq_some_iff.1 hentry).2.2]
    exact forall₂_filter hsteps i
  · intro placed hplaced
    obtain ⟨-, hle, phase, hphase, hposition⟩ := placed?_eq_some_iff.1 (hmem placed hplaced)
    exact ⟨hle, phase, hphase, PhaseOrder.getElem?_of_position? hposition⟩

end arrangement

/-! ### A request and a later one -/

section later

variable {request later : Request} {sorted sorted' : List (Nat × StepBinding)} {m m' : Mappings}

/-- A later execution point does not change what is placed up to an earlier one. -/
theorem filter_placed?_eq (horder : request.order = later.order)
    (hbindings : request.bindings = later.bindings) {i : Nat} (hi : i ≤ request.last)
    (hle : request.last ≤ later.last) :
    (request.bindings.filterMap (p.placed? request)).filter (·.1 = i) =
      (later.bindings.filterMap (p.placed? later)).filter (·.1 = i) := by
  rw [List.filter_filterMap, List.filter_filterMap, hbindings]
  refine List.filterMap_congr fun binding _ => ?_
  ext placed
  simp only [Option.filter_eq_some_iff, placed?_eq_some_iff, horder, decide_eq_true_eq]
  constructor
  · rintro ⟨⟨rfl, -, hposition⟩, rfl⟩
    exact ⟨⟨rfl, hi.trans hle, hposition⟩, rfl⟩
  · rintro ⟨⟨rfl, -, hposition⟩, rfl⟩
    exact ⟨⟨rfl, hi, hposition⟩, rfl⟩

/-- The execution point of an entry. -/
theorem Arranges.map_getElem?_entries (h : p.Arranges request sorted m) (i : Nat) :
    m.entries[i]?.map (·.1) = if i ≤ request.last then request.order.points[i]? else none := by
  rw [← List.getElem?_map, h.points, List.getElem?_take]
  simp only [Nat.lt_succ_iff]

/-- A binding has one step only. -/
theorem rightUnique_isStepOf : Relator.RightUnique p.IsStepOf := fun _ _ _ hstep hother =>
  Except.ok.inj (hstep.symm.trans hother)

/-- The mappings of an earlier execution point are the beginning of those of a later one. -/
theorem Arranges.isPrefix_of_le (h : p.Arranges request sorted m) (h' : p.Arranges later sorted' m')
    (horder : request.order = later.order) (hbindings : request.bindings = later.bindings)
    (hle : request.last ≤ later.last) : m.entries <+: m'.entries := by
  rw [List.prefix_iff_getElem?]
  intro i hi
  have hentry := List.getElem?_eq_getElem hi
  have hpoint := h.map_getElem?_entries i
  rw [hentry, Option.map_some] at hpoint
  have hlast : i ≤ request.last := by
    by_contra hlast
    rw [if_neg hlast] at hpoint
    cases hpoint
  have hpoint' := h'.map_getElem?_entries i
  rw [if_pos hlast] at hpoint
  rw [if_pos (hlast.trans hle), ← horder, ← hpoint] at hpoint'
  obtain ⟨entry', hentry', hpoint'⟩ := Option.map_eq_some_iff.1 hpoint'
  -- the bindings of the point are the same, and they stand in the same order
  have hsorted : sorted.filter (·.1 = i) = sorted'.filter (·.1 = i) := by
    refine (h.stable.filter _).unique ?_
    rw [filter_placed?_eq horder hbindings hlast hle]
    exact h'.stable.filter _
  have hsteps' := h'.entry i entry' hentry'
  rw [← hsorted] at hsteps'
  have hsteps := List.right_unique_forall₂' rightUnique_isStepOf (h.entry i _ hentry) hsteps'
  rw [hentry', Prod.ext hpoint' hsteps.symm]

end later

/-- A text is read as one request of a unit only. -/
theorem Requests.unique {unit : BuildUnit} {raw : String} {request : Request}
    (h : p.Requests unit raw request) {other : Request} (hother : p.Requests unit raw other) :
    request = other := by
  obtain ⟨lifecycle, order, last, bindings⟩ := request
  obtain ⟨lifecycle', order', last', bindings'⟩ := other
  obtain rfl := Except.ok.inj (h.lifecycle.symm.trans hother.lifecycle)
  obtain rfl := Except.ok.inj (h.order.symm.trans hother.order)
  obtain rfl := Option.some.inj (h.last.symm.trans hother.last)
  obtain rfl := Except.ok.inj ((h.bindings {}).symm.trans (hother.bindings {}))
  rfl

end Planner

/-! ### A site -/

namespace Publishing

/-- A site is rendered and then published. -/
def lifecycle : Lifecycle where
  id := "site"
  phases := [{ name := "render" }, { name := "publish" }]
  aliases := [{ legacy := "website", target := "after:render" }]

/-- The plugin of the site. -/
def plugin : Coordinate where
  group := "org.acme"
  artifact := "acme-plugin"

/-- A goal of the plugin. -/
def descriptor (goal : String) : StepDescriptor where
  plugin
  goal

/-- What plans of the site are made from. -/
def planner : Planner where
  registry := (LifecycleRegistry.register {} lifecycle).1
  catalog.plugins := [("org.acme:acme-plugin", {
    coordinate := plugin
    goals := [descriptor "copy", descriptor "tidy", descriptor "sign"] })]

/-- The unit of the site, which tidies up what has been copied. -/
def unit : BuildUnit where
  id := "app"
  plugins := [{
    coordinate := plugin
    executions := [
      { id := "tidy", phase := some "website", goals := ["tidy"], priority := 1 },
      { id := "sign", phase := some "publish", goals := ["sign"] },
      { id := "copy", phase := some "website", goals := ["copy"] }] }]

/-- A request up to a position of the lifecycle. -/
def request (last : Nat) : Planner.Request where
  lifecycle := lifecycle
  order := ⟨Phase.pointsOf lifecycle.phases⟩
  last
  bindings := [
    { plugin, goal := "tidy", phase := some "website", priority := 1, executionId := "tidy" },
    { plugin, goal := "sign", phase := some "publish", executionId := "sign" },
    { plugin, goal := "copy", phase := some "website", executionId := "copy" }]

/-- The unit has the bindings of its packaging and then those that it declares. -/
theorem bindings_eq (log : PlanningLog) :
    ((planner.bindings unit lifecycle).runWith log).1 = .ok (request 0).bindings :=
  (Planner.onlyReports_bindings unit lifecycle).result_eq ⟨{}, by cbv⟩ log

/-- The request for the point after rendering is read up to its position. -/
theorem requests_website : planner.Requests unit "website" (request 2) :=
  ⟨by cbv, by cbv, by cbv, bindings_eq⟩

/-- The request for the last phase is read up to the end. -/
theorem requests_publish : planner.Requests unit "publish" (request 5) :=
  ⟨by cbv, by cbv, by cbv, bindings_eq⟩

/-- A step of the site. -/
def step (goal phase : String) : PlannedStep where
  descriptor := descriptor goal
  executionId := goal
  phase := some phase
  source := .lifecycle

/-- What is done up to the point after rendering. -/
def website : Mappings where
  lifecycle := "site"
  entries := [(⟨.before, "render"⟩, []), (⟨.during, "render"⟩, []),
    (⟨.after, "render"⟩, [step "copy" "website", step "tidy" "website"])]

/-- What is done up to the end. -/
def published : Mappings where
  lifecycle := "site"
  entries := website.entries ++ [(⟨.before, "publish"⟩, []),
    (⟨.during, "publish"⟩, [step "sign" "publish"]), (⟨.after, "publish"⟩, [])]

end Publishing

/-! ### Mappings -/

namespace Planner

/-- The mappings of a request are the bindings of the unit up to the requested execution point in
the order of their points and priorities, each in the entry of its own point. Those of a later
execution point begin with them. -/
theorem mappings_arrange_bindings (p : Planner) (unit : BuildUnit) (raw : String)
    (log : PlanningLog) (m : Mappings) (hlog : p.Remembers log)
    (h : ((p.mappings unit raw).runWith log).1 = .ok m) :
    p.Remembers ((p.mappings unit raw).runWith log).2 ∧
    ∃ request sorted, p.Requests unit raw request ∧ p.Arranges request sorted m ∧
      ∀ raw' log' m' later, p.Remembers log' →
        ((p.mappings unit raw').runWith log').1 = .ok m' → p.Requests unit raw' later →
          later.lifecycle = request.lifecycle → request.last ≤ later.last →
            m.entries <+: m'.entries := by
  obtain ⟨hremembers, hresult⟩ := ensures_mappings p unit raw log hlog
  obtain ⟨request, steps, hrequest, hsteps, rfl⟩ := hresult m h
  have harranges := arranges_of_forall₂ hrequest hsteps
  refine ⟨hremembers, request, _, hrequest, harranges, ?_⟩
  intro raw' log' m' later hlog' h' hlater hlifecycle hle
  obtain ⟨other, steps', hother, hsteps', rfl⟩ :=
    (ensures_mappings p unit raw' log' hlog').2 m' h'
  obtain rfl := hlater.unique hother
  have horder : request.order = later.order := by
    refine Except.ok.inj (hrequest.order.symm.trans ?_)
    rw [← hlifecycle]
    exact hlater.order
  have hbindings : request.bindings = later.bindings := by
    refine Except.ok.inj ((hrequest.bindings {}).symm.trans ?_)
    rw [← hlifecycle]
    exact hlater.bindings {}
  exact harranges.isPrefix_of_le (arranges_of_forall₂ hlater hsteps') horder hbindings hle

/-- So it is with the point after rendering, which is an alias, and with the end of the
lifecycle. -/
theorem mappings_of_website :
    ((Publishing.planner.mappings Publishing.unit "website").runWith {}).1 =
        .ok Publishing.website ∧
      ((Publishing.planner.mappings Publishing.unit "publish").runWith {}).1 =
        .ok Publishing.published ∧
      ∃ sorted, Publishing.planner.Arranges (Publishing.request 2) sorted Publishing.website ∧
        Publishing.website.entries <+: Publishing.published.entries := by
  have hwebsite : ((Publishing.planner.mappings Publishing.unit "website").runWith {}).1 =
      .ok Publishing.website := by cbv
  have hpublished : ((Publishing.planner.mappings Publishing.unit "publish").runWith {}).1 =
      .ok Publishing.published := by cbv
  have hempty := Publishing.planner.remembers_empty
  obtain ⟨-, request, sorted, hrequest, harranges, hlater⟩ :=
    mappings_arrange_bindings Publishing.planner Publishing.unit "website" {} _ hempty hwebsite
  obtain rfl := hrequest.unique Publishing.requests_website
  exact ⟨hwebsite, hpublished, sorted, harranges, hlater "publish" {} _ (Publishing.request 5)
    hempty hpublished Publishing.requests_publish rfl (by decide)⟩

end Planner

end PhasedBuild
