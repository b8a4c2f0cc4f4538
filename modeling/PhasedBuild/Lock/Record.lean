import PhasedBuild.Datum
import PhasedBuild.Lock.Table

/-!
# The record of acquisitions

`LockSlots` is a lock table together with a record of the acquisitions that are under way on it,
each of which has a name. Every operation on a name answers what became of it and which messages it
gave rise to.

* `LockSlots.attempt` acquires at once or not at all.
* `LockSlots.start` starts an acquisition that may have to wait.
* `LockSlots.poll` and `LockSlots.release` go on with an acquisition and end it.
* `LockSlots.toDatum` shows the locks as data.
-/

namespace PhasedBuild

/-- What became of an operation on a name. -/
inductive SlotAnswer where
  /-- The acquisition has come this far. -/
  | state (acquisition : Acquisition)
  | refused
  | released (acquisition : Acquisition)
  | unknown
  | nameInUse
deriving Repr, Inhabited, DecidableEq

/-- What an acquisition holds, or that it waits. -/
def Acquisition.display : Acquisition → String
  | .empty => "held nothing"
  | .held _ .unit => "held unit"
  | .held _ (.aggregator .read) => "held read"
  | .held _ (.aggregator .write) => "held write"
  | .held _ (.step _) => "held step"
  | .waiting _ _ _ => "pending"
  | .waitingInside _ _ _ => "pending"

/-- The text of an answer. -/
def SlotAnswer.display : SlotAnswer → String
  | .state acquisition => acquisition.display
  | .refused => "refused"
  | .released acquisition => "released " ++ acquisition.display
  | .unknown => "unknown"
  | .nameInUse => "name in use"

/-- A lock table with named acquisitions. -/
structure LockSlots where
  table : LockTable := {}
  slots : List (String × Acquisition) := []
  /-- The units for whose locks somebody has asked, without the unit of no name. -/
  units : List String := []
deriving Repr, Inhabited

namespace LockSlots

/-- The state after an operation, its answer and its messages. -/
abbrev Outcome :=
  LockSlots × SlotAnswer × List String

/-- Notes the unit of an owner. -/
def note (s : LockSlots) (owner : Owner) : LockSlots :=
  if owner.unit.isEmpty || s.units.contains owner.unit then s
  else { s with units := s.units ++ [owner.unit] }

/-- Puts what became of an acquisition under its name. -/
def settle (s : LockSlots) (name : String) (result : LockTable × Acquisition × List String) :
    Outcome :=
  let (table, acquisition, messages) := result
  ({ s with table, slots := Keyed.insert name acquisition s.slots }, .state acquisition, messages)

/-- Whether a name is in use. -/
def isInUse (s : LockSlots) (name : String) : Bool :=
  Keyed.contains name s.slots

/-- Starts something for an owner under a name, unless the name is in use. -/
def enter (s : LockSlots) (name : String) (owner : Owner) (act : LockSlots → Outcome) : Outcome :=
  if s.isInUse name then (s, .nameInUse, []) else act (s.note owner)

/-- Starts an acquisition that may have to wait. -/
def start (s : LockSlots) (name : String) (owner : Owner) (request : LockRequest) : Outcome :=
  s.enter name owner fun s => s.settle name (s.table.begin owner request)

/-- Acquires at once or not at all. -/
def attempt (s : LockSlots) (name : String) (owner : Owner) (request : LockRequest) : Outcome :=
  s.enter name owner fun s =>
    match s.table.begin owner request with
    | (table, .held owner request, _) => s.settle name (table, .held owner request, [])
    | _ => (s, .refused, [])

/-- Puts the acquisition of nothing under a name. -/
def startEmpty (s : LockSlots) (name : String) (owner : Owner) : Outcome :=
  s.enter name owner fun s => s.settle name (s.table, .empty, [])

/-- Lets an acquisition try again. -/
def poll (s : LockSlots) (name : String) : Outcome :=
  match Keyed.find? name s.slots with
  | none => (s, .unknown, [])
  | some acquisition => s.settle name (s.table.poll acquisition)

/-- Ends an acquisition and frees its name. -/
def release (s : LockSlots) (name : String) : Outcome :=
  match Keyed.find? name s.slots with
  | none => (s, .unknown, [])
  | some acquisition =>
    ({ s with table := s.table.release acquisition, slots := Keyed.erase name s.slots },
      .released acquisition, [])

end LockSlots

/-! ### Locks as data -/

/-- An owner of a lock as data. -/
def Owner.toDatum (o : Owner) : Datum :=
  .table [("lane", .nat o.lane), ("unit", .text o.unit), ("step", .text o.step)]

/-- The locks of a table as data: the aggregator lock, and the lock of every unit that has been
asked for. -/
def LockSlots.toDatum (s : LockSlots) : Datum :=
  let aggregator := s.table.aggregator
  .table [
    ("writer", .orNull (aggregator.writer.map Owner.toDatum)),
    ("writer_display", .orNull (aggregator.writer.map fun owner => .text owner.display)),
    ("readers", .nat aggregator.readers.length),
    ("waiting_writer", .bool (0 < aggregator.waitingWriters)),
    ("units", .table (s.units.map fun unit =>
      let lock := s.table.unitLock unit
      (unit, .list [.bool lock.isHeld, .orNull (lock.holder.map Owner.toDatum)])))]

end PhasedBuild
