import Mathlib.Data.List.Forall2
import Mathlib.Data.List.ReduceOption
import PhasedBuild.Proofs.Plan.Steps

/-!
# Bindings of declared executions

A unit declares executions under the plugins that it uses, and each goal of an execution becomes a
binding. All of it is taken from the execution itself, but for the configuration: that is looked up
by the execution's id, and executions that are given no id have the same one.

* `Planner.BindsDeclared`: bindings are those of the declared executions, in their order.
* `PluginUse.configurationFor_eq_own_iff`: the executions of a plugin have their own configurations
  if and only if those of one id agree.
* `Planner.declared_bindings_take_first_of_id`: bindings carry what the first execution of the id
  says.
* `Planner.executions_share_configuration`: this need not be what their own execution says.
-/

namespace PhasedBuild

/-! ### Configurations of executions -/

namespace PluginUse

variable {use : PluginUse} {execution first : ExecutionDecl}

/-- The configuration of an execution itself over that of its plugin. -/
def ownConfiguration (use : PluginUse) (execution : ExecutionDecl) : Option ConfigNode :=
  ConfigNode.mergeOptions execution.configuration use.configuration

/-- No execution of the same id stands before an execution. -/
def IsFirst (use : PluginUse) (first : ExecutionDecl) : Prop :=
  ∃ before after, use.executions = before ++ first :: after ∧
    ∀ other ∈ before, other.id ≠ first.id

/-- The execution that is found for an id is the first one with that id. -/
theorem isFirst_of_execution? {id : String} (h : use.execution? id = some first) :
    use.IsFirst first ∧ first.id = id := by
  obtain ⟨hid, before, after, hexecutions, hbefore⟩ := List.find?_eq_some_iff_append.1 h
  obtain rfl : first.id = id := by simpa using hid
  exact ⟨⟨before, after, hexecutions, fun other hother => by simpa using hbefore other hother⟩, rfl⟩

/-- The first execution with its id is found for it. -/
theorem IsFirst.execution?_eq (h : use.IsFirst first) : use.execution? first.id = some first := by
  obtain ⟨before, after, hexecutions, hbefore⟩ := h
  refine List.find?_eq_some_iff_append.2 ⟨by simp, before, after, hexecutions, ?_⟩
  exact fun other hother => by simpa using hbefore other hother

/-- The first execution with its id gets the configuration that it declares itself. -/
theorem IsFirst.configurationFor_eq (h : use.IsFirst first) :
    use.configurationFor first.id = use.ownConfiguration first := by
  rw [configurationFor, h.execution?_eq]
  rfl

/-- For every execution there is a first one with its id. -/
theorem exists_isFirst (h : execution ∈ use.executions) :
    ∃ first, use.IsFirst first ∧ first.id = execution.id := by
  have hsome : (use.execution? execution.id).isSome :=
    List.find?_isSome.2 ⟨execution, h, by simp⟩
  obtain ⟨first, hfirst⟩ := Option.isSome_iff_exists.1 hsome
  exact ⟨first, isFirst_of_execution? hfirst⟩

/-- The first execution with an id belongs to the use of the plugin. -/
theorem IsFirst.mem (h : use.IsFirst first) : first ∈ use.executions := by
  obtain ⟨before, after, hexecutions, -⟩ := h
  rw [hexecutions]
  exact List.mem_append_right _ List.mem_cons_self

/-- The configuration of the id of each execution is its own if and only if executions of one id
agree in what their own are. -/
theorem configurationFor_eq_own_iff (use : PluginUse) :
    (∀ execution ∈ use.executions,
      use.configurationFor execution.id = use.ownConfiguration execution) ↔
    ∀ execution ∈ use.executions, ∀ other ∈ use.executions, execution.id = other.id →
      use.ownConfiguration execution = use.ownConfiguration other := by
  constructor
  · intro h execution hexecution other hother hid
    rw [← h execution hexecution, ← h other hother, hid]
  · intro h execution hexecution
    obtain ⟨first, hfirst, hid⟩ := exists_isFirst hexecution
    rw [← hid, hfirst.configurationFor_eq]
    exact h first hfirst.mem execution hexecution hid

end PluginUse

/-! ### Bindings -/

/-- The goals that a unit declares, each with its execution and the plugin, in their order. -/
def BuildUnit.declaredGoals (unit : BuildUnit) : List (PluginUse × ExecutionDecl × String) :=
  unit.plugins.flatMap fun use => use.executions.flatMap fun execution =>
    execution.goals.map (use, execution, ·)

namespace Planner

/-- The phase of a declared goal: that of the execution or else that of the goal itself. -/
def declaredPhase? (p : Planner) (use : PluginUse) (execution : ExecutionDecl) (goal : String) :
    Except BuildError (Option String) :=
  match execution.phase with
  | some phase => .ok (some phase)
  | none => (p.catalog.resolve use.coordinate goal).map (·.phase)

/-- The binding of a declared goal to a phase, with a configuration. -/
def bindingOf (use : PluginUse) (execution : ExecutionDecl) (goal : String)
    (configuration : Option ConfigNode) (phase : String) : StepBinding where
  plugin := use.coordinate
  goal
  phase := some phase
  priority := execution.priority
  executionId := execution.id
  configuration

/-- Bindings are those of the goals that a unit declares, in the same order. Goals without a phase
have none. The configuration depends on the plugin and on the execution. -/
def BindsDeclared (p : Planner) (unit : BuildUnit)
    (configuration : PluginUse → ExecutionDecl → Option ConfigNode) (bindings : List StepBinding) :
    Prop :=
  ∃ found : List (Option StepBinding), bindings = found.reduceOption ∧
    List.Forall₂ (fun (use, execution, goal) binding =>
      ∃ phase, p.declaredPhase? use execution goal = .ok phase ∧
        binding = phase.map (bindingOf use execution goal (configuration use execution)))
      unit.declaredGoals found

variable {p : Planner}

/-- The binding of a declared goal is at its phase, with the configuration that is found for the id
of its execution. -/
theorem declaredBinding?_eq (use : PluginUse) (execution : ExecutionDecl) (goal : String) :
    p.declaredBinding? use execution goal = (p.declaredPhase? use execution goal).map
      (·.map (bindingOf use execution goal (use.configurationFor execution.id))) := by
  unfold declaredBinding? declaredPhase?
  cases execution.phase with
  | some phase => rfl
  | none =>
    dsimp only
    cases p.catalog.resolve use.coordinate goal <;> rfl

/-- The bindings that a unit declares are those of its declared goals, with the configurations that
are found for the ids of their executions. -/
theorem bindsDeclared_declaredBindings {unit : BuildUnit} {bindings : List StepBinding}
    (h : p.declaredBindings unit = .ok bindings) :
    p.BindsDeclared unit (fun use execution => use.configurationFor execution.id) bindings := by
  obtain ⟨found, hfound, h⟩ := exists_of_bind_eq_ok h
  obtain rfl := Except.ok.inj h
  refine ⟨found, rfl, (forall₂_of_mapM_eq_ok hfound).imp ?_⟩
  rintro ⟨use, execution, goal⟩ binding h
  dsimp only at h
  rw [declaredBinding?_eq] at h
  cases hphase : p.declaredPhase? use execution goal with
  | error =>
    rw [hphase] at h
    cases h
  | ok phase =>
    rw [hphase] at h
    exact ⟨phase, hphase, (Except.ok.inj h).symm⟩

/-- All bindings of a unit: default bindings that are adapted to it, and those that it declares. -/
theorem ensures_bindsDeclared_bindings (unit : BuildUnit) (lifecycle : Lifecycle) :
    Planning.Ensures (fun _ => True) (p.bindings unit lifecycle) fun all =>
      ∃ given declared : List StepBinding, all = given.map (adapt unit) ++ declared ∧
        p.BindsDeclared unit (fun use execution => use.configurationFor execution.id) declared := by
  have hdeclared : Planning.Ensures (fun _ => True)
      (bindings.liftExcept (p.declaredBindings unit))
      (p.BindsDeclared unit fun use execution => use.configurationFor execution.id) :=
    fun _ _ => ⟨trivial, fun _ h => bindsDeclared_declaredBindings h⟩
  refine Planning.Ensures.any.bind fun _ _ => Planning.Ensures.any.bind fun _ _ => ?_
  exact hdeclared.bind fun declared h => .pure ⟨_, declared, rfl, h⟩

end Planner

/-! ### Executions without ids -/

namespace Levels

/-- A build that compiles and tests. -/
def lifecycle : Lifecycle where
  id := "work"
  phases := [{ name := "compile" }, { name := "test" }]

def plugin : Coordinate where
  group := "org.acme"
  artifact := "acme-plugin"

/-- The configuration that has one entry. -/
def entry (name value : String) : ConfigNode where
  name := ConfigNode.rootName
  children := [{ name, value := some value }]

/-- Compiling is done on the first level and testing on the second one. -/
def use : PluginUse where
  coordinate := plugin
  configuration := some (entry "mode" "strict")
  executions := [
    { phase := some "compile", goals := ["compile"], configuration := some (entry "level" "1") },
    { phase := some "test", goals := ["test"], configuration := some (entry "level" "2") }]

def unit : BuildUnit where
  id := "app"
  plugins := [use]

/-- A planner that knows no goals. It need not, as the executions name their phases. -/
def planner : Planner := {}

/-- The binding of a goal to the phase of the same name, on the first level. -/
def binding (goal : String) : StepBinding where
  plugin
  goal
  phase := some goal
  executionId := "default"
  configuration := some {
    name := ConfigNode.rootName
    children :=
      [{ name := "level", value := some "1" }, { name := "mode", value := some "strict" }] }

/-- Both goals are bound on the first level, though one of them is declared on the second. -/
theorem bindings_eq : ((planner.bindings unit lifecycle).runWith {}).1 =
    .ok [binding "compile", binding "test"] := by
  cbv

end Levels

namespace Planner

/-- The bindings of a unit are default bindings, adapted to the unit, and then those of the goals
that it declares. Each of these carries the configuration of the first execution that has the id of
its own one, over that of the plugin. All executions of a plugin have their own configurations if
and only if those of one id agree. -/
theorem declared_bindings_take_first_of_id (p : Planner) (unit : BuildUnit) (lifecycle : Lifecycle)
    (log : PlanningLog) (bindings : List StepBinding)
    (h : ((p.bindings unit lifecycle).runWith log).1 = .ok bindings) :
    (∃ given declared : List StepBinding, bindings = given.map (adapt unit) ++ declared ∧
      p.BindsDeclared unit (fun use execution => use.configurationFor execution.id) declared) ∧
    ∀ use ∈ unit.plugins,
      (∀ execution ∈ use.executions, ∃ first, use.IsFirst first ∧ first.id = execution.id ∧
        use.configurationFor execution.id = use.ownConfiguration first) ∧
      ((∀ execution ∈ use.executions,
          use.configurationFor execution.id = use.ownConfiguration execution) ↔
        ∀ execution ∈ use.executions, ∀ other ∈ use.executions, execution.id = other.id →
          use.ownConfiguration execution = use.ownConfiguration other) := by
  refine ⟨?_, fun use _ => ⟨fun execution hexecution => ?_, use.configurationFor_eq_own_iff⟩⟩
  · exact (ensures_bindsDeclared_bindings unit lifecycle log trivial).2 bindings h
  · obtain ⟨first, hfirst, hid⟩ := PluginUse.exists_isFirst hexecution
    refine ⟨first, hfirst, hid, ?_⟩
    rw [← hid, hfirst.configurationFor_eq]

/-- So it is with executions that have no ids. -/
theorem bindings_of_levels :
    ((Levels.planner.bindings Levels.unit Levels.lifecycle).runWith {}).1 =
        .ok [Levels.binding "compile", Levels.binding "test"] ∧
    ∃ given declared : List StepBinding,
      [Levels.binding "compile", Levels.binding "test"] =
        given.map (adapt Levels.unit) ++ declared ∧
      Levels.planner.BindsDeclared Levels.unit
        (fun use execution => use.configurationFor execution.id) declared :=
  ⟨Levels.bindings_eq,
    (declared_bindings_take_first_of_id Levels.planner _ _ _ _ Levels.bindings_eq).1⟩

/-- Bindings need not carry the configurations of their own executions: where neither compiling nor
testing has an id, both are done on the level of compiling. -/
theorem executions_share_configuration : ¬ ∀ (p : Planner) (unit : BuildUnit)
    (lifecycle : Lifecycle) (log : PlanningLog) (bindings : List StepBinding),
    ((p.bindings unit lifecycle).runWith log).1 = .ok bindings →
    ∃ given declared : List StepBinding, bindings = given.map (adapt unit) ++ declared ∧
      p.BindsDeclared unit PluginUse.ownConfiguration declared := by
  intro h
  obtain ⟨given, declared, heq, found, rfl, hfound⟩ := h _ _ _ _ _ Levels.bindings_eq
  change List.Forall₂ _ [(Levels.use, _, _), (Levels.use, _, _)] found at hfound
  obtain _ | ⟨⟨compiled, hcompiled, rfl⟩, _ | ⟨⟨tested, htested, rfl⟩, _ | _⟩⟩ := hfound
  obtain rfl := Except.ok.inj hcompiled
  obtain rfl := Except.ok.inj htested
  -- testing comes last
  have hlast := congrArg List.getLast? heq
  rw [List.getLast?_append] at hlast
  have hlevel := congrArg (fun binding : StepBinding =>
    (binding.configuration.bind (·.child? "level")).bind (·.value)) (Option.some.inj hlast)
  revert hlevel
  decide

end Planner

end PhasedBuild
