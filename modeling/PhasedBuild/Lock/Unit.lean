/-!
# The lock of a unit

A lane is one worker of a build; all that it does happens one after the other. Locks belong to
lanes: a lane that holds a lock may take it again. `Owner` is a lane with what it is doing.

At most one lane works on a unit. The lane that holds the lock may take it again, and the lock is
free once it has been given back as often as it was taken. Then those who wait for it are called;
one who has not been called since it last asked does not ask again.
-/

namespace PhasedBuild

/-- A lane, with the unit that it works on and the step that it runs there. -/
structure Owner where
  lane : Nat
  unit : String
  step : String
deriving Repr, Inhabited, DecidableEq

/-- The step and its unit. -/
def Owner.display (o : Owner) : String :=
  o.step ++ " on " ++ o.unit

/-- The lock of a unit. -/
structure UnitLock where
  /-- Its outermost holder. -/
  holder : Option Owner := none
  /-- How often it has been taken and not given back. -/
  depth : Nat := 0
  /-- How often those who wait have been called. -/
  calls : Nat := 0
deriving Repr, Inhabited, DecidableEq

namespace UnitLock

/-- Whether some lane holds the lock. -/
def isHeld (l : UnitLock) : Bool :=
  l.holder.isSome

/-- Takes the lock unless another lane holds it. -/
def acquire? (l : UnitLock) (owner : Owner) : Option UnitLock :=
  match l.holder with
  | none => some { l with holder := some owner, depth := 1 }
  | some holder => if holder.lane = owner.lane then some { l with depth := l.depth + 1 } else none

/-- Gives the lock back once. Those who wait are called when it becomes free. -/
def release (l : UnitLock) : UnitLock :=
  if l.depth ≤ 1 then { calls := l.calls + 1 } else { l with depth := l.depth - 1 }

/-- What is reported when an owner has to wait for the lock of its unit. -/
def contention (l : UnitLock) (owner : Owner) : String :=
  let running := match l.holder with
    | some holder => "Step " ++ holder.step
    | none => "A step"
  running ++ " is already running on unit " ++ owner.unit ++ "; " ++ owner.step ++
    " is blocked until it is done"

end UnitLock

end PhasedBuild
