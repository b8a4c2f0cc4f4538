import PhasedBuild.Proofs.Lifecycle.Standing

/-!
# What a refused lifecycle leaves behind

A lifecycle that repeats a phase is refused before anything is done. Any other one takes the place
of the one of its id first, and claims its names one after the other until one of them is taken.
What has been done by then is not undone when the lifecycle is refused.

* `LifecycleRegistry.IsLike`: two registries that nobody can tell apart, whatever is registered
  later.
* `LifecycleRegistry.refused_registration_shows`: when a refused lifecycle leaves a registry like it
  was, and what it leaves otherwise.
* `LifecycleRegistry.refused_registration_forgets`: a lifecycle can be lost to one that is refused.
-/

namespace PhasedBuild

namespace LifecycleRegistry

/-- Two registries answer every question alike. -/
structure AnswersLike (r r' : LifecycleRegistry) : Prop where
  ids : r.ids = r'.ids
  get? : ∀ id, r.get? id = r'.get? id
  order : ∀ id, r.order id = r'.order id
  resolve : ∀ raw, r.resolve raw = r'.resolve raw
  lifecycleOf : ∀ phase, r.lifecycleOf phase = r'.lifecycleOf phase

/-- What becomes of lifecycles that are registered one after the other. -/
def verdicts (r : LifecycleRegistry) : List Lifecycle → List (Except Fault Unit)
  | [] => []
  | l :: rest => (r.register l).2 :: (r.register l).1.verdicts rest

/-- Two registries take and refuse the same lifecycles and answer alike after any of them. -/
def IsLike (r r' : LifecycleRegistry) : Prop :=
  ∀ attempts, r.verdicts attempts = r'.verdicts attempts ∧
    (r.after attempts).AnswersLike (r'.after attempts)

/-- A registry is like itself. -/
theorem IsLike.refl (r : LifecycleRegistry) : r.IsLike r :=
  fun _ => ⟨rfl, ⟨rfl, fun _ => rfl, fun _ => rfl, fun _ => rfl, fun _ => rfl⟩⟩

/-- A lifecycle claims no new name: those before the first that is taken have been claimed for the
next position before. -/
def ClaimsNothing (r : LifecycleRegistry) (l : Lifecycle) : Prop :=
  ∀ name ∈ l.claimedNames.takeWhile (r.isFree r.lifecycles.length),
    Keyed.find? name r.owners = some r.lifecycles.length

variable {r : LifecycleRegistry} {l : Lifecycle} {names : List String} {position : Nat}

/-! ### Claims for a position that is not there -/

/-- Claiming names for the position that has them already changes nothing. -/
theorem withClaims_eq_self (h : r.Sound)
    (hclaimed : ∀ name ∈ names, Keyed.find? name r.owners = some position) :
    r.withClaims position names = r := by
  have howners : claimed position names r.owners = r.owners := by
    induction names with
    | nil => rfl
    | cons name rest ih =>
      obtain ⟨hname, hrest⟩ := List.forall_mem_cons.1 hclaimed
      show claimed position rest (Keyed.insert name position r.owners) = _
      rw [Keyed.insert_eq_self h.sorted hname, ih hrest]
  rw [withClaims, howners]

/-- The claims cannot be seen as long as nothing is registered. -/
theorem answersLike_withClaims
    (hfree : ∀ name ∈ names, r.isFree r.lifecycles.length name = true) :
    (r.withClaims r.lifecycles.length names).AnswersLike r where
  ids := rfl
  get? _ := rfl
  order _ := rfl
  resolve _ := rfl
  lifecycleOf phase := by
    have hbind : (Keyed.find? phase (claimed r.lifecycles.length names r.owners)).bind
        (r.lifecycles[·]?) = (Keyed.find? phase r.owners).bind (r.lifecycles[·]?) := by
      rw [find?_claimed]
      split
      next hphase =>
        have hnone : r.lifecycles[r.lifecycles.length]? = none := by simp
        cases hfind : Keyed.find? phase r.owners with
        | none => exact hnone
        | some owner => rw [isFree_iff.1 (hfree phase hphase) owner hfind]
      next => rfl
    simp only [lifecycleOf, withClaims, hbind]
    rfl

/-- A lifecycle without phases is refused nowhere. -/
theorem Sound.register_empty (h : r.Sound) {id : String} (hid : id ∉ r.ids) :
    (r.register { id, phases := [] }).1 = r.extended { id, phases := [] } {} := by
  have horder : PhaseOrder.ofPhases [] = .ok {} := by cbv
  have hwithout : r.without id = r := if_neg (mt get?_isSome_iff.1 hid)
  rw [h.register_eq rfl, hwithout]
  unfold add
  simp only [horder]
  rfl

/-- A name that has been claimed for the next position belongs to the next lifecycle, whether this
one declares it or not. -/
theorem not_isLike_withClaims (h : r.Sound) {id : String} (hid : id ∉ r.ids)
    (hfree : ∀ name ∈ names, r.isFree r.lifecycles.length name = true) {name : String}
    (hname : name ∈ names) (hnew : Keyed.find? name r.owners = none) :
    ¬ (r.withClaims r.lifecycles.length names).IsLike r := by
  intro hlike
  let next : Lifecycle := { id, phases := [] }
  have hanswer : ((r.withClaims r.lifecycles.length names).register next).1.lifecycleOf name =
      (r.register next).1.lifecycleOf name := (hlike [next]).2.lifecycleOf name
  rw [h.register_empty hid, (h.withClaims hfree).register_empty hid] at hanswer
  have hclaimed : ((r.withClaims r.lifecycles.length names).extended next {}).lifecycleOf name =
      .ok next := by
    refine lifecycleOf_eq_ok_iff.2 ⟨r.lifecycles.length, ?_, ?_⟩
    · exact (find?_claimed r.lifecycles.length names r.owners name).trans (if_pos hname)
    · exact getElem?_append_singleton_iff.2 (.inr ⟨rfl, rfl⟩)
  obtain ⟨i, hfind, -⟩ := lifecycleOf_eq_ok_iff.1 (hanswer.symm.trans hclaimed)
  exact absurd (hnew.symm.trans hfind) nofun

/-! ### Refused lifecycles -/

/-- All that a refused lifecycle can leave. -/
theorem Sound.refused_cases (h : r.Sound) {fault : Fault} (hr : (r.register l).2 = .error fault) :
    ¬ l.phaseNames.Nodup ∧ (r.register l).1 = r ∨
    l.phaseNames.Nodup ∧
      ((¬ ∃ order, PhaseOrder.ofPhases l.phases = .ok order) ∧
          (r.register l).1 = r.without l.id ∨
        (∃ order, PhaseOrder.ofPhases l.phases = .ok order) ∧
          (r.register l).1 = (r.without l.id).withClaims (r.without l.id).lifecycles.length
            (l.claimedNames.takeWhile
              ((r.without l.id).isFree (r.without l.id).lifecycles.length))) := by
  rw [← Lifecycle.duplicatePhases_eq_nil_iff]
  by_cases hl : l.duplicatePhases = []
  · refine .inr ⟨hl, ?_⟩
    rw [h.register_eq hl] at hr ⊢
    rcases (r.without l.id).add_cases l with
      ⟨hnone, _, heq⟩ | ⟨order, horder, ⟨-, _, heq⟩ | ⟨-, heq⟩⟩
    · exact .inl ⟨hnone, by rw [heq]⟩
    · exact .inr ⟨⟨order, horder⟩, by rw [heq]⟩
    · rw [heq] at hr
      cases hr
  · obtain ⟨_, heq⟩ := r.register_of_duplicatePhases hl
    exact .inl ⟨hl, by rw [heq]⟩

section refused

variable (h : r.Sound) {fault : Fault} (hr : (r.register l).2 = .error fault)
include h hr

/-- A refused lifecycle with distinct phases takes the one of its id away and nothing else. -/
theorem Sound.lifecycles_of_refused (hl : l.phaseNames.Nodup) :
    (r.register l).1.lifecycles = r.lifecycles.filter (·.id != l.id) := by
  rcases h.refused_cases hr with ⟨hnot, -⟩ | ⟨-, ⟨-, heq⟩ | ⟨-, heq⟩⟩
  · exact absurd hl hnot
  · rw [heq]
    exact h.lifecycles_without l.id
  · rw [heq]
    exact h.lifecycles_without l.id

/-- Where the id of a refused lifecycle is not in use, claims are all that it can leave. -/
theorem Sound.refused_of_notMem (hl : l.phaseNames.Nodup) (hid : l.id ∉ r.ids) :
    (¬ ∃ order, PhaseOrder.ofPhases l.phases = .ok order) ∧ (r.register l).1 = r ∨
    (∃ order, PhaseOrder.ofPhases l.phases = .ok order) ∧
      (r.register l).1 = r.withClaims r.lifecycles.length
        (l.claimedNames.takeWhile (r.isFree r.lifecycles.length)) := by
  have hwithout : r.without l.id = r := if_neg (mt get?_isSome_iff.1 hid)
  rcases h.refused_cases hr with ⟨hnot, -⟩ | ⟨-, hcases⟩
  · exact absurd hl hnot
  · rwa [hwithout] at hcases

/-- A lifecycle that repeats a phase is refused before anything is done, and one of a new id takes
nothing away; all answers stay as they were. -/
theorem Sound.answersLike_of_refused (hcond : ¬ l.phaseNames.Nodup ∨ l.id ∉ r.ids) :
    (r.register l).1.AnswersLike r := by
  by_cases hl : l.phaseNames.Nodup
  · rcases h.refused_of_notMem hr hl (hcond.resolve_left (not_not_intro hl)) with
      ⟨-, heq⟩ | ⟨-, heq⟩
    · rw [heq]
      exact (IsLike.refl r []).2
    · rw [heq]
      exact answersLike_withClaims fun name hname => List.mem_takeWhile_imp hname
  · rcases h.refused_cases hr with ⟨-, heq⟩ | ⟨hnodup, -⟩
    · rw [heq]
      exact (IsLike.refl r []).2
    · exact absurd hnodup hl

/-- Where its id is new, a refused lifecycle leaves no trace exactly if its phases cannot be ordered
or it claims no new name. -/
theorem Sound.isLike_iff_of_notMem (hl : l.phaseNames.Nodup) (hid : l.id ∉ r.ids) :
    (r.register l).1.IsLike r ↔
      (¬ ∃ order, PhaseOrder.ofPhases l.phases = .ok order) ∨ r.ClaimsNothing l := by
  rcases h.refused_of_notMem hr hl hid with ⟨hnone, heq⟩ | ⟨horder, heq⟩
  · rw [heq]
    exact iff_of_true (.refl r) (.inl hnone)
  · rw [heq, or_iff_right (not_not_intro horder)]
    have hfree : ∀ name ∈ l.claimedNames.takeWhile (r.isFree r.lifecycles.length),
        r.isFree r.lifecycles.length name = true := fun name hname => List.mem_takeWhile_imp hname
    constructor
    · intro hlike name hname
      cases hfind : Keyed.find? name r.owners with
      | none => exact absurd hlike (not_isLike_withClaims h hid hfree hname hfind)
      | some owner => rw [isFree_iff.1 (hfree name hname) owner hfind]
    · intro hclaimed
      rw [withClaims_eq_self h hclaimed]
      exact .refl r

/-- A refused lifecycle leaves no trace exactly if it repeats a phase, or if its id is new and it
comes to claim nothing new. -/
theorem Sound.isLike_iff : (r.register l).1.IsLike r ↔ ¬ l.phaseNames.Nodup ∨ l.id ∉ r.ids ∧
    ((¬ ∃ order, PhaseOrder.ofPhases l.phases = .ok order) ∨ r.ClaimsNothing l) := by
  by_cases hl : l.phaseNames.Nodup
  · rw [or_iff_right (not_not_intro hl)]
    by_cases hid : l.id ∈ r.ids
    · -- the lifecycle of its id is not among the others
      refine iff_of_false (fun hlike => ?_) fun hcond => hcond.1 hid
      have hids : (r.register l).1.ids = r.ids := (hlike []).2.ids
      rw [← hids, LifecycleRegistry.ids, h.lifecycles_of_refused hr hl] at hid
      obtain ⟨other, hother, heq⟩ := List.mem_map.1 hid
      simpa [heq] using List.of_mem_filter hother
    · rw [h.isLike_iff_of_notMem hr hl hid, and_iff_right hid]
  · rcases h.refused_cases hr with ⟨-, heq⟩ | ⟨hnodup, -⟩
    · rw [heq]
      exact iff_of_true (.refl r) (.inl hl)
    · exact absurd hnodup hl

end refused

/-- A refused lifecycle leaves a registry like it was exactly when it repeats a phase, or when its
id is not in use and it has no order or claims nothing. If it repeats a phase or its id is not in
use, then at least the answers stay until another one is registered. Unless it repeats a phase, the
lifecycle of its id is lost. -/
theorem refused_registration_shows (attempts : List Lifecycle) (l : Lifecycle) (fault : Fault)
    (h : ((after {} attempts).register l).2 = .error fault) :
    (((after {} attempts).register l).1.IsLike (after {} attempts) ↔
      ¬ l.phaseNames.Nodup ∨ l.id ∉ (after {} attempts).ids ∧
        ((¬ ∃ order, PhaseOrder.ofPhases l.phases = .ok order) ∨
          (after {} attempts).ClaimsNothing l)) ∧
    (¬ l.phaseNames.Nodup ∨ l.id ∉ (after {} attempts).ids →
      ((after {} attempts).register l).1.AnswersLike (after {} attempts)) ∧
    (l.phaseNames.Nodup → ((after {} attempts).register l).1.lifecycles =
      (after {} attempts).lifecycles.filter (·.id != l.id)) :=
  have hsound := sound_after attempts
  ⟨hsound.isLike_iff h, hsound.answersLike_of_refused h, hsound.lifecycles_of_refused h⟩

end LifecycleRegistry

/-! ### A site and its documentation -/

namespace Site

/-- The site is rendered. -/
def rendering : Lifecycle where
  id := "site"
  phases := [{ name := "render" }]

/-- The site is declared anew, but it cannot be rendered after it has been published. -/
def looping : Lifecycle where
  id := "site"
  phases := [{ name := "render", links := [⟨.after, .phase "publish"⟩] }, { name := "publish" }]

/-- Documentation has drafts, and a phase whose name the site has. -/
def drafting : Lifecycle where
  id := "docs"
  phases := [{ name := "draft" }, { name := "render" }]

end Site

namespace LifecycleRegistry

/-- The site is there before it is declared anew. -/
theorem ids_rendering : (after {} [Site.rendering]).ids = ["site"] := by cbv

/-- Nobody sees at first that the documentation has been refused, but drafts are claimed for the
lifecycle that comes next. -/
theorem refused_registration_of_drafting :
    ((after {} [Site.rendering]).register Site.drafting).2 =
        .error (.phaseTaken "render" "docs" "site") ∧
      ((after {} [Site.rendering]).register Site.drafting).1.AnswersLike
        (after {} [Site.rendering]) ∧
      ¬ ((after {} [Site.rendering]).register Site.drafting).1.IsLike
        (after {} [Site.rendering]) := by
  have h : ((after {} [Site.rendering]).register Site.drafting).2 =
      .error (.phaseTaken "render" "docs" "site") := by cbv
  have hids : Site.drafting.id ∉ (after {} [Site.rendering]).ids := by
    rw [ids_rendering]
    decide
  obtain ⟨hlike, hanswers, -⟩ := refused_registration_shows _ _ _ h
  refine ⟨h, hanswers (.inr hids), fun hsame => ?_⟩
  rcases hlike.1 hsame with hrepeated | ⟨-, hnone | hclaims⟩
  · exact hrepeated (by decide)
  · exact hnone ⟨⟨Phase.pointsOf Site.drafting.phases⟩, by cbv⟩
  · have hbefore : Site.drafting.claimedNames.takeWhile
        ((after {} [Site.rendering]).isFree (after {} [Site.rendering]).lifecycles.length) =
          ["draft"] := by cbv
    have hdraft : Keyed.find? "draft" (after {} [Site.rendering]).owners = none := by cbv
    have hclaim := hclaims "draft" (by rw [hbefore]; exact List.mem_singleton_self _)
    cases hdraft.symm.trans hclaim

/-- The site is lost when it is declared anew and refused. -/
theorem refused_registration_forgets : ¬ ∀ (attempts : List Lifecycle) (l : Lifecycle)
    (fault : Fault), ((after {} attempts).register l).2 = .error fault →
      ((after {} attempts).register l).1.IsLike (after {} attempts) := by
  intro h
  have hrefused : ((after {} [Site.rendering]).register Site.looping).2 =
      .error (.unorderedLifecycle "site"
        (.phaseCycle (.before "publish") (.during "publish"))) := by
    cbv
  have hids : ((after {} [Site.rendering]).register Site.looping).1.ids =
      (after {} [Site.rendering]).ids := (h _ _ _ hrefused []).2.ids
  have hlost : ((after {} [Site.rendering]).register Site.looping).1.ids = [] := by cbv
  rw [hlost, ids_rendering] at hids
  exact absurd hids (by decide)

end LifecycleRegistry

end PhasedBuild
