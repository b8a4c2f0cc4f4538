import PhasedBuild.Lock.Unit

/-!
# The lock of aggregating steps

An aggregating step works on all units, so no other lane may run a step beside it. It takes the
write side of this lock; every other step takes the read side.

* `AggregatorLock.acquire?` takes a side if that is possible now.
* A lane that has a side may take either side that no other lane stands against.
* While a writer waits, no lane without a side gets the read side, so writers are not starved.
* Those who wait are called when a side is given back and when a writer waits no more. One who has
  not been called since it last asked does not ask again.
-/

namespace PhasedBuild

/-- A side of the lock. -/
inductive Access where
  /-- The side of a step that works on its own unit. -/
  | read
  /-- The side of a step that works on all units. -/
  | write
deriving Repr, Inhabited, DecidableEq

namespace Access

/-- The side that a step needs. -/
def ofStep (aggregating : Bool) : Access :=
  if aggregating then .write else .read

end Access

/-- A lane that has the read side, and how often it has taken it and not given it back. -/
structure Reader where
  owner : Owner
  depth : Nat
deriving Repr, Inhabited, DecidableEq

/-- The lock of aggregating steps. -/
structure AggregatorLock where
  /-- Who has the write side. -/
  writer : Option Owner := none
  /-- How often the write side has been taken and not given back. -/
  writeDepth : Nat := 0
  /-- The lanes that have the read side, each once. -/
  readers : List Reader := []
  /-- The number of acquisitions that wait for the write side. -/
  waitingWriters : Nat := 0
  /-- How often those who wait have been called. -/
  calls : Nat := 0
deriving Repr, Inhabited, DecidableEq

namespace AggregatorLock

/-- Whether a lane has the read side. -/
def isReader (l : AggregatorLock) (lane : Nat) : Bool :=
  l.readers.any (·.owner.lane == lane)

/-- Whether a lane has the write side. -/
def isWriter (l : AggregatorLock) (lane : Nat) : Bool :=
  l.writer.any (·.lane == lane)

/-- Counts one more read side of an owner's lane. -/
def addReader (owner : Owner) : List Reader → List Reader
  | [] => [⟨owner, 1⟩]
  | r :: rest =>
    if r.owner.lane = owner.lane then { r with depth := r.depth + 1 } :: rest
    else r :: addReader owner rest

/-- Counts one read side less for a lane, which leaves the list with its last one. -/
def dropReader (lane : Nat) : List Reader → List Reader
  | [] => []
  | r :: rest =>
    if r.owner.lane = lane then
      if r.depth ≤ 1 then rest else { r with depth := r.depth - 1 } :: rest
    else r :: dropReader lane rest

/-- Takes a side, unless other lanes stand against it. -/
def acquire? (l : AggregatorLock) (owner : Owner) : Access → Option AggregatorLock
  | .write =>
    match l.writer with
    | some writer =>
      if writer.lane = owner.lane then some { l with writeDepth := l.writeDepth + 1 } else none
    | none =>
      if l.readers.any (·.owner.lane != owner.lane) then none
      else some { l with writer := some owner, writeDepth := 1 }
  | .read =>
    let inside := l.isReader owner.lane || l.isWriter owner.lane
    if !inside && (l.writer.isSome || 0 < l.waitingWriters) then none
    else some { l with readers := addReader owner l.readers }

/-- Calls those who wait. -/
def call (l : AggregatorLock) : AggregatorLock :=
  { l with calls := l.calls + 1 }

/-- The lock with a side given back once. -/
def giveBack (l : AggregatorLock) (lane : Nat) : Access → AggregatorLock
  | .write =>
    if l.writeDepth ≤ 1 then { l with writer := none, writeDepth := 0 }
    else { l with writeDepth := l.writeDepth - 1 }
  | .read => { l with readers := dropReader lane l.readers }

/-- Gives a side back once and calls those who wait. -/
def release (l : AggregatorLock) (lane : Nat) (access : Access) : AggregatorLock :=
  (l.giveBack lane access).call

/-- Notes that an acquisition begins to wait for a side. -/
def enqueue (l : AggregatorLock) : Access → AggregatorLock
  | .write => { l with waitingWriters := l.waitingWriters + 1 }
  | .read => l

/-- Notes that an acquisition waits no more. Others may no longer have to wait for a writer. -/
def dequeue (l : AggregatorLock) : Access → AggregatorLock
  | .write => { l with waitingWriters := l.waitingWriters - 1 }.call
  | .read => l

/-- What is reported when an owner has to wait for a side. -/
def contention (l : AggregatorLock) (owner : Owner) (access : Access) : String :=
  match l.writer, access with
  | some writer, _ =>
    "The aggregating step " ++ writer.step ++ " is already running in this parallel build; " ++
      "aggregating steps need exclusive access to every unit, so " ++ owner.step ++
      " is blocked until it is done"
  | none, .write =>
    "Aggregating step " ++ owner.step ++ " waits for " ++ toString l.readers.length ++
      " running step(s) to finish"
  | none, .read =>
    "An aggregating step is queued in this parallel build; " ++ owner.step ++
      " is blocked until it is done"

end AggregatorLock

end PhasedBuild
