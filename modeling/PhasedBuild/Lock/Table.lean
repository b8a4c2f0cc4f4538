import PhasedBuild.Keyed
import PhasedBuild.Lock.Aggregator

/-!
# The locks of a build

A build has one aggregator lock and a lock for each unit. A step takes its side of the aggregator
lock first and the lock of its unit second, and gives them back the other way round.

* `LockTable.begin` starts an acquisition. One that cannot be completed reports the lock that it
  waits for.
* `LockTable.poll` lets a waiting acquisition try again if it has been called since it last tried.
* `LockTable.release` ends an acquisition, whether it holds its locks or waits for them.
-/

namespace PhasedBuild

/-- The locks of a build. A unit without an entry has a free lock. -/
structure LockTable where
  aggregator : AggregatorLock := {}
  units : List (String × UnitLock) := []
deriving Repr, Inhabited, DecidableEq

/-- What an owner asks for. -/
inductive LockRequest where
  /-- The lock of its unit. -/
  | unit
  /-- A side of the aggregator lock. -/
  | aggregator (access : Access)
  /-- A side of the aggregator lock, and then the lock of its unit. -/
  | step (access : Access)
deriving Repr, Inhabited, DecidableEq

/-- How far an acquisition has come. -/
inductive Acquisition where
  /-- Nothing was asked for. -/
  | empty
  /-- All that was asked for is held. -/
  | held (owner : Owner) (request : LockRequest)
  /-- The first lock of the request is not there yet; its calls are counted up to the last try. -/
  | waiting (owner : Owner) (request : LockRequest) (calls : Nat)
  /-- A step has its side of the aggregator lock and waits for the lock of its unit, whose calls are
  counted up to the last try. -/
  | waitingInside (owner : Owner) (access : Access) (calls : Nat)
deriving Repr, Inhabited, DecidableEq

namespace LockTable

/-- The lock of a unit. -/
def unitLock (t : LockTable) (unit : String) : UnitLock :=
  (Keyed.find? unit t.units).getD {}

/-- Puts a lock in the place of that of a unit. -/
def setUnitLock (t : LockTable) (unit : String) (l : UnitLock) : LockTable :=
  { t with units := Keyed.insert unit l t.units }

/-- Takes the lock of an owner's unit if that is possible now. -/
def acquireUnit? (t : LockTable) (owner : Owner) : Option LockTable :=
  ((t.unitLock owner.unit).acquire? owner).map (t.setUnitLock owner.unit)

/-- Takes a side of the aggregator lock if that is possible now. -/
def acquireSide? (t : LockTable) (owner : Owner) (access : Access) : Option LockTable :=
  (t.aggregator.acquire? owner access).map fun aggregator => { t with aggregator }

/-- Gives the lock of a unit back once. -/
def releaseUnit (t : LockTable) (unit : String) : LockTable :=
  t.setUnitLock unit (t.unitLock unit).release

/-- Gives a side of the aggregator lock back once. -/
def releaseSide (t : LockTable) (owner : Owner) (access : Access) : LockTable :=
  { t with aggregator := t.aggregator.release owner.lane access }

/-- A step that has its side of the aggregator lock goes on to the lock of its unit. -/
def enterUnit (t : LockTable) (owner : Owner) (access : Access) :
    LockTable × Acquisition × List String :=
  let lock := t.unitLock owner.unit
  match t.acquireUnit? owner with
  | some t => (t, .held owner (.step access), [])
  | none => (t, .waitingInside owner access lock.calls, [lock.contention owner])

/-- Goes on with a request whose side of the aggregator lock has just been taken. -/
def enterSide (t : LockTable) (owner : Owner) (request : LockRequest) (access : Access) :
    LockTable × Acquisition × List String :=
  match request with
  | .step _ => t.enterUnit owner access
  | _ => (t, .held owner request, [])

/-- Starts a request for a side of the aggregator lock. -/
def beginSide (t : LockTable) (owner : Owner) (request : LockRequest) (access : Access) :
    LockTable × Acquisition × List String :=
  match t.acquireSide? owner access with
  | some t => t.enterSide owner request access
  | none =>
    ({ t with aggregator := t.aggregator.enqueue access },
      .waiting owner request t.aggregator.calls, [t.aggregator.contention owner access])

/-- Starts an acquisition. The messages tell what it has to wait for. -/
def begin (t : LockTable) (owner : Owner) (request : LockRequest) :
    LockTable × Acquisition × List String :=
  match request with
  | .unit =>
    let lock := t.unitLock owner.unit
    match t.acquireUnit? owner with
    | some t => (t, .held owner .unit, [])
    | none => (t, .waiting owner .unit lock.calls, [lock.contention owner])
  | .aggregator access => t.beginSide owner request access
  | .step access => t.beginSide owner request access

/-- Lets an acquisition that waits for a side of the aggregator lock try again. -/
def retrySide (t : LockTable) (owner : Owner) (request : LockRequest) (access : Access) :
    LockTable × Acquisition × List String :=
  match t.acquireSide? owner access with
  | some t =>
    { t with aggregator := t.aggregator.dequeue access }.enterSide owner request access
  | none => (t, .waiting owner request t.aggregator.calls, [])

/-- Lets an acquisition that waits for the lock of a unit try again. -/
def retryUnit (t : LockTable) (owner : Owner) (request : LockRequest)
    (waiting : Nat → Acquisition) : LockTable × Acquisition × List String :=
  match t.acquireUnit? owner with
  | some t => (t, .held owner request, [])
  | none => (t, waiting (t.unitLock owner.unit).calls, [])

/-- Lets an acquisition try again if it has been called since it last tried. One that holds all that
it asked for stays as it is. -/
def poll (t : LockTable) (a : Acquisition) : LockTable × Acquisition × List String :=
  match a with
  | .waiting owner .unit calls =>
    if (t.unitLock owner.unit).calls = calls then (t, a, [])
    else t.retryUnit owner .unit (.waiting owner .unit)
  | .waiting owner (.aggregator access) calls =>
    if t.aggregator.calls = calls then (t, a, [])
    else t.retrySide owner (.aggregator access) access
  | .waiting owner (.step access) calls =>
    if t.aggregator.calls = calls then (t, a, [])
    else t.retrySide owner (.step access) access
  | .waitingInside owner access calls =>
    if (t.unitLock owner.unit).calls = calls then (t, a, [])
    else t.retryUnit owner (.step access) (.waitingInside owner access)
  | .empty => (t, a, [])
  | .held _ _ => (t, a, [])

/-- Ends an acquisition and gives back what it holds. -/
def release (t : LockTable) : Acquisition → LockTable
  | .empty => t
  | .held owner .unit => t.releaseUnit owner.unit
  | .held owner (.aggregator access) => t.releaseSide owner access
  | .held owner (.step access) => (t.releaseUnit owner.unit).releaseSide owner access
  | .waiting _ .unit _ => t
  | .waiting _ (.aggregator access) _ => { t with aggregator := t.aggregator.dequeue access }
  | .waiting _ (.step access) _ => { t with aggregator := t.aggregator.dequeue access }
  | .waitingInside owner access _ => t.releaseSide owner access

end LockTable

end PhasedBuild
