import PhasedBuild.Text.Split

/-!
# Execution points

A phase has three execution points: before it, at it and after it.

* `PhaseRef` names one of them; `PhaseRef.parse` reads `before:p`, `at:p`, `after:p` and a bare `p`,
  which means the point at `p`.
* `Node` is a node of the graph that orders them: an execution point, or the aggregate that stands
  for a phase of other units.
-/

namespace PhasedBuild

/-- The position of an execution point relative to its phase. -/
inductive Side where
  | before
  | during
  | after
deriving Repr, Inhabited, DecidableEq

namespace Side

/-- The name of a side. -/
def name : Side → String
  | .before => "before"
  | .during => "at"
  | .after => "after"

end Side

/-- An execution point of a phase. -/
structure PhaseRef where
  side : Side
  phase : String
deriving Repr, Inhabited, DecidableEq

namespace PhaseRef

/-- The written form; the point at a phase is written as the bare phase. -/
def display (r : PhaseRef) : String :=
  match r.side with
  | .before => "before:" ++ r.phase
  | .during => r.phase
  | .after => "after:" ++ r.phase

/-- Reads an execution point. Every text names one. -/
def parse (raw : String) : PhaseRef :=
  match Text.after? "before:" raw with
  | some phase => ⟨.before, phase⟩
  | none =>
    match Text.after? "at:" raw with
    | some phase => ⟨.during, phase⟩
    | none =>
      match Text.after? "after:" raw with
      | some phase => ⟨.after, phase⟩
      | none => ⟨.during, raw⟩

end PhaseRef

/-- A node of the graph that orders phases. -/
inductive Node where
  | point (ref : PhaseRef)
  /-- A phase of all child units. -/
  | children (phase : String)
  /-- A phase of all units that a scope of dependencies leads to. -/
  | dependencies (scope phase : String)
deriving Repr, Inhabited, DecidableEq

namespace Node

/-- The node before a phase. -/
def before (phase : String) : Node := .point ⟨.before, phase⟩

/-- The node at a phase. -/
def during (phase : String) : Node := .point ⟨.during, phase⟩

/-- The node after a phase. -/
def after (phase : String) : Node := .point ⟨.after, phase⟩

/-- The execution point of a node that stands for the unit's own phase. -/
def point? : Node → Option PhaseRef
  | .point ref => some ref
  | .children _ => none
  | .dependencies _ _ => none

/-- Whether a node stands for other units. -/
def isAggregate (n : Node) : Bool :=
  n.point?.isNone

/-- The phase of a node. -/
def phase : Node → String
  | .point ref => ref.phase
  | .children phase => phase
  | .dependencies _ phase => phase

/-- The written form of a node. -/
def display : Node → String
  | .point ref => ref.display
  | .children phase => "children:" ++ phase
  | .dependencies scope phase => "dependencies[" ++ scope ++ "]:" ++ phase

end Node

end PhasedBuild
