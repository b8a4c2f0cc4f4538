import PhasedBuild.Datum
import PhasedBuild.Run.Action

/-!
# States and runs of steps as data
-/

namespace PhasedBuild

/-- The state of a unit as data; the copy for forked work is no part of it. -/
def UnitState.toDatum (s : UnitState) : Datum :=
  .table [
    ("last_phase", .orNull (s.lastPhase.map .text)),
    ("executed", .texts s.executed),
    ("properties", .table (s.properties.map fun (key, value) => (key, .text value)))]

/-- A run of a step as data, with its lane unless that is left out. -/
def StepCall.toDatum (c : StepCall) (withLane : Bool) : Datum :=
  .record [
    ("unit", some (.text c.unit.id)),
    ("step", some (.text c.step.display)),
    ("owner", some (.text c.owner.display)),
    ("lane", if withLane then some (.nat c.owner.lane) else none),
    ("depth", some (.nat c.depth)),
    ("artifacts", some (.texts c.artifacts)),
    ("state", some c.state.toDatum),
    ("snapshot", some (.orNull (c.state.forked.map UnitState.toDatum)))]

/-- A request to a resolver as data. -/
def ResolveRequest.toDatum (r : ResolveRequest) : Datum :=
  .table [("unit", .text r.unit), ("scopes", .texts (r.scopes.map Scope.name))]

end PhasedBuild
