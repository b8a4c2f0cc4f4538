import PhasedBuild.Phase.Point

/-!
# Phases

A phase has a name, nested phases, links to other phases and the bindings of steps that belong to
it.

* `Phase.walk` lists a phase and all phases inside it, parents first.
* `Phase.points` lists their execution points in the order of the declaration: before a phase come
  its nested phases, then the phase itself, then the point after it.
-/

namespace PhasedBuild

/-- The direction of a link. -/
inductive LinkKind where
  /-- The declaring phase starts when the target is complete. -/
  | after
  /-- The declaring phase is complete when the target starts. -/
  | before
deriving Repr, Inhabited, DecidableEq

namespace LinkKind

/-- The name of a direction. -/
def name : LinkKind → String
  | .after => "after"
  | .before => "before"

/-- The direction of a name. -/
def ofName? (s : String) : Option LinkKind :=
  [after, before].find? (·.name == s)

end LinkKind

/-- The target of a link. -/
inductive Pointer where
  /-- A phase of the same unit. -/
  | phase (name : String)
  /-- A phase of all child units. -/
  | children (phase : String)
  /-- A phase of all units that a scope of dependencies leads to. -/
  | dependencies (scope phase : String)
deriving Repr, Inhabited, DecidableEq

/-- An ordering constraint of a phase. -/
structure Link where
  kind : LinkKind
  pointer : Pointer
deriving Repr, Inhabited, DecidableEq

/-- Whether a link stays within the unit. -/
def Link.isLocal (link : Link) : Bool :=
  match link.pointer with
  | .phase _ => true
  | _ => false

/-- The node that a link leads to. A link to a phase of the same unit leads to the execution point
that faces the declaring phase. -/
def Link.target (link : Link) : Node :=
  match link.pointer, link.kind with
  | .phase name, .after => .after name
  | .phase name, .before => .before name
  | .children phase, _ => .children phase
  | .dependencies scope phase, _ => .dependencies scope phase

/-- A phase of a lifecycle. -/
structure Phase where
  name : String
  phases : List Phase := []
  links : List Link := []
  /-- The steps that the lifecycle itself binds to the phase, as written. -/
  bindings : List String := []
deriving Repr, Inhabited, BEq

namespace Phase

mutual

/-- The phase and all phases inside it, parents first. -/
def walk : Phase → List Phase
  | phase@⟨_, phases, _, _⟩ => phase :: walkAll phases

/-- The phases of a list and all phases inside them, parents first. -/
def walkAll : List Phase → List Phase
  | [] => []
  | phase :: rest => phase.walk ++ walkAll rest

end

mutual

/-- The execution points of a phase and of all phases inside it, as declared. -/
def points : Phase → List PhaseRef
  | ⟨name, phases, _, _⟩ => ⟨.before, name⟩ :: pointsOf phases ++ [⟨.during, name⟩, ⟨.after, name⟩]

/-- The execution points of the phases of a list, as declared. -/
def pointsOf : List Phase → List PhaseRef
  | [] => []
  | phase :: rest => phase.points ++ pointsOf rest

end

/-- The names of the phases of a list and of all phases inside them, parents first. -/
def names (phases : List Phase) : List String :=
  (walkAll phases).map (·.name)

/-- The names that occur more than once, in the order of their first repetition. -/
def repeated : List String → List String → List String
  | _, [] => []
  | seen, name :: rest =>
    if seen.count name = 1 then name :: repeated (name :: seen) rest
    else repeated (name :: seen) rest

end Phase

end PhasedBuild
