import Mathlib.Data.List.Forall2
import PhasedBuild.Plan.Mappings

/-!
# Results of planning

A computation of the planner starts with a log and leaves one behind, also when it fails.

* `Planning.Yields`: what a computation may come to.
* `Planning.Ensures`: what holds of all that a computation comes to from logs with an invariant,
  which it keeps. There is one rule for each way of putting computations together.
* `Planning.OnlyReports`: the log does not matter for what a computation comes to.
* `Planning.Determined`: among logs with an invariant it does not matter either.
* `Planner.Remembers`: the invariant of the planner, whose cache holds what the registry says.
-/

namespace PhasedBuild

namespace Planning

variable {α β : Type} {x : Planning α} {f : α → Planning β}

/-- A computation comes to a result, whatever the log that it starts with. -/
def Yields (x : Planning α) (a : α) : Prop :=
  ∃ log, (x.runWith log).1 = .ok a

/-- What needs no planning comes to one result only. -/
theorem yields_pure_iff {a b : α} : (pure a : Planning α).Yields b ↔ b = a := by
  constructor
  · rintro ⟨log, h⟩
    exact (Except.ok.inj h).symm
  · rintro rfl
    exact ⟨{}, rfl⟩

/-- What needs no planning comes to its result and leaves the log alone. -/
theorem runWith_pure (a : α) (log : PlanningLog) :
    (pure a : Planning α).runWith log = (.ok a, log) :=
  rfl

/-- Planning in two parts hands the log on, and stops at the first error. -/
theorem runWith_bind (x : Planning α) (f : α → Planning β) (log : PlanningLog) :
    (x >>= f).runWith log =
      match x.runWith log with
      | (.ok a, log) => (f a).runWith log
      | (.error e, log) => (.error e, log) := by
  have hbind : (x >>= f).runWith log =
      let outcome := x.runWith log
      ExceptT.bindCont f outcome.1 outcome.2 := rfl
  rw [hbind]
  rcases x.runWith log with ⟨_ | _, _⟩ <;> rfl

/-- A computation in two parts fails in the first one, or in the second one with what the first one
came to. -/
theorem bind_fails_iff {log : PlanningLog} {e : BuildError} :
    ((x >>= f).runWith log).1 = .error e ↔ (x.runWith log).1 = .error e ∨
      ∃ a log', x.runWith log = (.ok a, log') ∧ ((f a).runWith log').1 = .error e := by
  rw [runWith_bind]
  rcases x.runWith log with ⟨_ | a, log'⟩ <;> simp

/-- Changing an error changes neither a result nor the log. -/
theorem runWith_mapError (change : BuildError → BuildError) (x : Planning α) (log : PlanningLog) :
    (mapError change x).runWith log =
      ((x.runWith log).1.mapError change, (x.runWith log).2) := by
  simp only [mapError, tryCatch, tryCatchThe, MonadExceptOf.tryCatch, ExceptT.tryCatch, runWith,
    ExceptT.run, ExceptT.mk, bind, StateT.bind]
  rcases x log with ⟨_ | _, _⟩ <;> rfl

/-- A result of planning in two parts is a result of each of them. -/
theorem Yields.bind {b : β} (h : (x >>= f).Yields b) : ∃ a, x.Yields a ∧ (f a).Yields b := by
  obtain ⟨log, h⟩ := h
  rw [runWith_bind] at h
  split at h
  next a log' hx => exact ⟨a, ⟨log, by rw [hx]⟩, ⟨log', h⟩⟩
  next => cases h

/-- A computation may go on in any way that is the same for all that it may come to. -/
theorem bind_congr_of_yields {g : α → Planning β} (h : ∀ a, x.Yields a → f a = g a) :
    x >>= f = x >>= g := by
  show (x >>= f).runWith = (x >>= g).runWith
  funext log
  rw [runWith_bind, runWith_bind]
  split
  next a log' hx => rw [h a ⟨log, by rw [hx]⟩]
  next => rfl

/-! ### What a computation ensures -/

/-- From logs with an invariant, a computation comes to results with a property only, and to logs
with the invariant again. -/
def Ensures (invariant : PlanningLog → Prop) (x : Planning α) (property : α → Prop) : Prop :=
  ∀ log, invariant log →
    invariant (x.runWith log).2 ∧ ∀ a, (x.runWith log).1 = .ok a → property a

namespace Ensures

variable {invariant : PlanningLog → Prop} {property : α → Prop} {property' : β → Prop}

/-- A result that needs no planning has the property if it is known to. -/
theorem pure {a : α} (h : property a) : Ensures invariant (Pure.pure a) property :=
  fun _ hlog => ⟨hlog, fun _ ha => Except.ok.inj ha ▸ h⟩

/-- An error is no result, so nothing has to be ensured of it. -/
theorem throw (e : BuildError) : Ensures invariant (MonadExcept.throw e : Planning α) property :=
  fun _ hlog => ⟨hlog, fun _ ha => nomatch ha⟩

/-- What the first part ensures, the second part may count on. -/
theorem bind (hx : Ensures invariant x property)
    (hf : ∀ a, property a → Ensures invariant (f a) property') :
    Ensures invariant (x >>= f) property' := by
  intro log hlog
  obtain ⟨hlog', hproperty⟩ := hx log hlog
  rw [runWith_bind]
  rcases hresult : x.runWith log with ⟨_ | a, log'⟩
  · rw [hresult] at hlog'
    exact ⟨hlog', fun _ h => nomatch h⟩
  · rw [hresult] at hlog' hproperty
    exact hf a (hproperty a rfl) log' hlog'

/-- A property may be replaced by a weaker one. -/
theorem imp {stronger : α → Prop} (hx : Ensures invariant x stronger)
    (h : ∀ a, stronger a → property a) : Ensures invariant x property := fun log hlog =>
  ⟨(hx log hlog).1, fun a ha => h a ((hx log hlog).2 a ha)⟩

/-- Nothing has to be shown to ensure nothing. -/
theorem any : Ensures (fun _ => True) x fun _ => True := fun _ _ =>
  ⟨trivial, fun _ _ => trivial⟩

/-- What holds of all results, whatever the log, may be added. -/
theorem and {other : α → Prop} (hx : Ensures invariant x property)
    (hother : Ensures (fun _ => True) x other) :
    Ensures invariant x fun a => property a ∧ other a := fun log hlog =>
  ⟨(hx log hlog).1, fun a ha => ⟨(hx log hlog).2 a ha, (hother log trivial).2 a ha⟩⟩

/-- What follows an error does not matter. -/
theorem throw_bind {e : BuildError} :
    Ensures invariant ((MonadExcept.throw e : Planning α) >>= f) property' := by
  have hthrow : Ensures invariant (MonadExcept.throw e : Planning α) fun _ => False := throw e
  exact hthrow.bind fun _ h => h.elim

/-- Changing an error changes no result. -/
theorem mapError {change : BuildError → BuildError} (hx : Ensures invariant x property) :
    Ensures invariant (mapError change x) property := by
  intro log hlog
  obtain ⟨hlog', hproperty⟩ := hx log hlog
  rw [runWith_mapError]
  rcases hresult : x.runWith log with ⟨_ | a, log'⟩
  · rw [hresult] at hlog'
    exact ⟨hlog', fun _ h => nomatch h⟩
  · rw [hresult] at hlog' hproperty
    exact ⟨hlog', fun _ h => hproperty _ h⟩

/-- Planning for each element of a list relates each of them to its result. -/
theorem mapM {relation : α → β → Prop} {l : List α}
    (h : ∀ a ∈ l, Ensures invariant (f a) (relation a)) :
    Ensures invariant (l.mapM f) (List.Forall₂ relation l) := by
  induction l with
  | nil => exact .pure .nil
  | cons a rest ih =>
    rw [List.mapM_cons]
    obtain ⟨ha, hrest⟩ := List.forall_mem_cons.1 h
    exact ha.bind fun b hb => (ih hrest).bind fun bs hbs => .pure (.cons hb hbs)

/-- All that the computations for a list come to has a property if each of them ensures it. -/
theorem forall_mapM {l : List α} (h : ∀ a ∈ l, Ensures invariant (f a) property') :
    Ensures invariant (l.mapM f) fun bs => ∀ b ∈ bs, property' b := by
  induction l with
  | nil => exact .pure fun b hb => absurd hb List.not_mem_nil
  | cons a rest ih =>
    rw [List.mapM_cons]
    obtain ⟨ha, hrest⟩ := List.forall_mem_cons.1 h
    refine ha.bind fun b hb => (ih hrest).bind fun bs hbs => .pure ?_
    exact List.forall_mem_cons.2 ⟨hb, hbs⟩

/-- A property that no step breaks holds after all steps. -/
theorem foldlM {γ : Type} {step : β → γ → Planning β} {l : List γ}
    (h : ∀ b, property' b → ∀ c ∈ l, Ensures invariant (step b c) property') {b : β}
    (hb : property' b) : Ensures invariant (l.foldlM step b) property' := by
  induction l generalizing b with
  | nil => exact .pure hb
  | cons c rest ih =>
    rw [List.foldlM_cons]
    refine (h b hb c List.mem_cons_self).bind fun b' hb' => ih ?_ hb'
    exact fun b hb c hc => h b hb c (List.mem_cons_of_mem _ hc)

end Ensures

/-! ### Computations that only report -/

/-- A computation comes to one result, whatever the log, and changes nothing of it but the
warnings. -/
def OnlyReports (x : Planning α) : Prop :=
  ∃ result, ∀ log : PlanningLog, ∃ warnings, x.runWith log = (result, { log with warnings })

namespace OnlyReports

/-- What needs no planning does not report anything. -/
theorem pure (a : α) : OnlyReports (Pure.pure a) :=
  ⟨.ok a, fun log => ⟨log.warnings, rfl⟩⟩

/-- An error does not report anything. -/
theorem throw (e : BuildError) : OnlyReports (MonadExcept.throw e : Planning α) :=
  ⟨.error e, fun log => ⟨log.warnings, rfl⟩⟩

/-- Warning only reports. -/
theorem warn (messages : List String) : OnlyReports (warn messages) :=
  ⟨.ok (), fun log => ⟨log.warnings ++ messages, rfl⟩⟩

/-- Planning in two parts only reports if both of them do. -/
theorem bind (hx : OnlyReports x) (hf : ∀ a, OnlyReports (f a)) : OnlyReports (x >>= f) := by
  obtain ⟨_ | a, hx⟩ := hx
  next e =>
    refine ⟨.error e, fun log => ?_⟩
    obtain ⟨warnings, hlog⟩ := hx log
    exact ⟨warnings, by rw [runWith_bind, hlog]⟩
  next =>
    obtain ⟨result, hf⟩ := hf a
    refine ⟨result, fun log => ?_⟩
    obtain ⟨warnings, hlog⟩ := hx log
    obtain ⟨more, hmore⟩ := hf { log with warnings }
    exact ⟨more, by rw [runWith_bind, hlog]; exact hmore⟩

/-- What only reports comes to its one result from every log. -/
theorem result_eq {a : α} (hx : OnlyReports x) (ha : x.Yields a) (log : PlanningLog) :
    (x.runWith log).1 = .ok a := by
  obtain ⟨result, hx⟩ := hx
  obtain ⟨other, ha⟩ := ha
  obtain ⟨warnings, hlog⟩ := hx log
  obtain ⟨_, hother⟩ := hx other
  rw [hother] at ha
  rw [hlog]
  exact ha

end OnlyReports

/-! ### Computations that a log does not change -/

/-- From all logs with an invariant, a computation comes to one result or to one error, and to logs
with the invariant again. -/
def Determined (invariant : PlanningLog → Prop) (x : Planning α) : Prop :=
  ∃ result, ∀ log, invariant log → (x.runWith log).1 = result ∧ invariant (x.runWith log).2

namespace Determined

variable {invariant : PlanningLog → Prop}

/-- What needs no planning is determined. -/
theorem pure (a : α) : Determined invariant (Pure.pure a) :=
  ⟨.ok a, fun _ hlog => ⟨rfl, hlog⟩⟩

/-- An error is determined. -/
theorem throw (e : BuildError) : Determined invariant (MonadExcept.throw e : Planning α) :=
  ⟨.error e, fun _ hlog => ⟨rfl, hlog⟩⟩

/-- Planning in two parts is determined if both of them are. -/
theorem bind (hx : Determined invariant x) (hf : ∀ a, Determined invariant (f a)) :
    Determined invariant (x >>= f) := by
  obtain ⟨_ | a, hx⟩ := hx
  next e =>
    refine ⟨.error e, fun log hlog => ?_⟩
    obtain ⟨hresult, hlog'⟩ := hx log hlog
    rw [runWith_bind]
    rcases hrun : x.runWith log with ⟨_, log'⟩
    rw [hrun] at hresult hlog'
    obtain rfl : _ = Except.error e := hresult
    exact ⟨rfl, hlog'⟩
  next =>
    obtain ⟨result, hf⟩ := hf a
    refine ⟨result, fun log hlog => ?_⟩
    obtain ⟨hresult, hlog'⟩ := hx log hlog
    rw [runWith_bind]
    rcases hrun : x.runWith log with ⟨_, log'⟩
    rw [hrun] at hresult hlog'
    obtain rfl : _ = Except.ok a := hresult
    exact hf log' hlog'

/-- After an error nothing else is planned. -/
theorem throw_bind {e : BuildError} :
    Determined invariant ((MonadExcept.throw e : Planning α) >>= f) :=
  ⟨.error e, fun _ hlog => ⟨rfl, hlog⟩⟩

/-- Planning for each element of a list is determined if it is for each. -/
theorem mapM {l : List α} (h : ∀ a ∈ l, Determined invariant (f a)) :
    Determined invariant (l.mapM f) := by
  induction l with
  | nil => exact .pure []
  | cons a rest ih =>
    rw [List.mapM_cons]
    obtain ⟨ha, hrest⟩ := List.forall_mem_cons.1 h
    exact ha.bind fun _ => (ih hrest).bind fun _ => .pure _

/-- Planning step by step is determined if each step is. -/
theorem foldlM {γ : Type} {step : β → γ → Planning β} {l : List γ}
    (h : ∀ b, ∀ c ∈ l, Determined invariant (step b c)) (b : β) :
    Determined invariant (l.foldlM step b) := by
  induction l generalizing b with
  | nil => exact .pure b
  | cons c rest ih =>
    rw [List.foldlM_cons]
    refine (h b c List.mem_cons_self).bind fun b' => ih (fun b c hc => ?_) b'
    exact h b c (List.mem_cons_of_mem _ hc)

/-- What it comes to from one log it comes to from all. -/
theorem ensures (hx : Determined invariant x) :
    Ensures invariant x fun a => ∀ log, invariant log → (x.runWith log).1 = .ok a := by
  obtain ⟨result, hx⟩ := hx
  refine fun log hlog => ⟨(hx log hlog).2, fun a ha log' hlog' => ?_⟩
  rw [(hx log' hlog').1, ← (hx log hlog).1]
  exact ha

end Determined

end Planning

/-! ### What the planner remembers -/

/-- Every text in a cache stands with the execution point that it names. -/
def RefCache.Accords (cache : RefCache) (registry : LifecycleRegistry) : Prop :=
  ∀ raw ref, Keyed.find? raw cache.entries = some ref → ref = registry.resolve raw

/-- Resolving a text gives what it names, from a cache as from the registry. -/
theorem RefCache.Accords.resolve {cache : RefCache} {registry : LifecycleRegistry}
    (h : cache.Accords registry) (raw : String) :
    (cache.resolve registry raw).1 = registry.resolve raw ∧
      (cache.resolve registry raw).2.Accords registry := by
  unfold RefCache.resolve
  split
  next ref hfind => exact ⟨h raw ref hfind, h⟩
  next =>
    refine ⟨rfl, fun other ref hfind => ?_⟩
    by_cases hother : other = raw
    · subst hother
      rw [Keyed.find?_insert_self] at hfind
      exact (Option.some.inj hfind).symm
    · rw [Keyed.find?_insert_of_ne hother] at hfind
      exact h other ref hfind

namespace Planner

/-- The execution points in a log are those of the planner's registry. -/
def Remembers (p : Planner) (log : PlanningLog) : Prop :=
  log.cache.Accords p.registry

/-- A log without any execution points remembers nothing wrong. -/
theorem remembers_empty (p : Planner) : p.Remembers {} :=
  fun _ _ h => nomatch h

/-- A text is read as the registry reads it. -/
theorem runWith_resolveRef {p : Planner} {log : PlanningLog} (hlog : p.Remembers log)
    (raw : String) : ∃ log', (p.resolveRef raw).runWith log =
      (.ok (p.registry.resolve raw), log') ∧ p.Remembers log' := by
  obtain ⟨hpoint, hcache⟩ := RefCache.Accords.resolve hlog raw
  exact ⟨_, Prod.ext (congrArg Except.ok hpoint) rfl, hcache⟩

/-- Reading an execution point comes to the one that the registry reads, whether or not it is in the
log already. -/
theorem ensures_resolveRef (p : Planner) (raw : String) :
    Planning.Ensures p.Remembers (p.resolveRef raw) (· = p.registry.resolve raw) := by
  intro log hlog
  obtain ⟨log', hrun, hlog'⟩ := runWith_resolveRef hlog raw
  rw [hrun]
  exact ⟨hlog', fun a ha => (Except.ok.inj ha).symm⟩

/-- Which execution point a text names does not depend on the log. -/
theorem determined_resolveRef (p : Planner) (raw : String) :
    Planning.Determined p.Remembers (p.resolveRef raw) := by
  refine ⟨.ok (p.registry.resolve raw), fun log hlog => ?_⟩
  obtain ⟨log', hrun, hlog'⟩ := runWith_resolveRef hlog raw
  rw [hrun]
  exact ⟨rfl, hlog'⟩

/-- What only reports is determined, for it leaves the execution points in the log alone. -/
theorem determined_of_onlyReports (p : Planner) {α : Type} {x : Planning α} (hx : x.OnlyReports) :
    Planning.Determined p.Remembers x := by
  obtain ⟨result, hx⟩ := hx
  refine ⟨result, fun log hlog => ?_⟩
  obtain ⟨warnings, hresult⟩ := hx log
  rw [hresult]
  exact ⟨rfl, hlog⟩

/-- Reports leave what is remembered. -/
theorem ensures_of_onlyReports (p : Planner) {α : Type} {x : Planning α} (hx : x.OnlyReports) :
    Planning.Ensures p.Remembers x x.Yields := by
  obtain ⟨result, hx⟩ := hx
  intro log hlog
  obtain ⟨warnings, hresult⟩ := hx log
  refine ⟨?_, fun a ha => ⟨log, ha⟩⟩
  rw [hresult]
  exact hlog

end Planner

end PhasedBuild
