import PhasedBuild.Keyed
import PhasedBuild.Lifecycle
import PhasedBuild.Phase.Order

/-!
# The registry of lifecycles

The registry holds the known lifecycles with the orders of their execution points and tells which
lifecycle a phase belongs to.

* `LifecycleRegistry.register` adds a lifecycle or replaces the one of the same id. A lifecycle is
  refused when it repeats a phase, has no order, or claims a name of another lifecycle; the steps
  taken up to that point stay in effect.
* `LifecycleRegistry.resolve` reads an execution point and follows aliases.
* `RefCache` remembers execution points that have been read.
-/

namespace PhasedBuild

/-- The known lifecycles. -/
structure LifecycleRegistry where
  lifecycles : List Lifecycle := []
  /-- The order of the execution points of each lifecycle. -/
  orders : List (String × PhaseOrder) := []
  /-- The position of the lifecycle that claims a name. -/
  owners : List (String × Nat) := []
  /-- The execution point that an older name stands for. -/
  aliases : List (String × PhaseRef) := []
deriving Repr, Inhabited

namespace LifecycleRegistry

/-- The lifecycle of an id. -/
def get? (r : LifecycleRegistry) (id : String) : Option Lifecycle :=
  r.lifecycles.find? (·.id == id)

/-- The ids of the lifecycles in the order of their registration. -/
def ids (r : LifecycleRegistry) : List String :=
  r.lifecycles.map (·.id)

/-! ### Registration -/

/-- Claims names for the lifecycle at a position, one after the other, until one of them belongs to
a lifecycle at another position. -/
def claim (r : LifecycleRegistry) (position : Nat) (id : String) :
    List String → LifecycleRegistry × Except Fault Unit
  | [] => (r, .ok ())
  | name :: rest =>
    match (Keyed.find? name r.owners).filter (· ≠ position) with
    | some owner =>
      let other := (r.lifecycles[owner]?.map (·.id)).getD "<unknown>"
      (r, .error (.phaseTaken name id other))
    | none => { r with owners := Keyed.insert name position r.owners }.claim position id rest

/-- Claims all names of a lifecycle and, if they are free, takes its aliases. -/
def index (r : LifecycleRegistry) (position : Nat) (l : Lifecycle) :
    LifecycleRegistry × Except Fault Unit :=
  match r.claim position l.id l.claimedNames with
  | (r, .error fault) => (r, .error fault)
  | (r, .ok ()) =>
    let aliases := l.aliases.foldl
      (fun table a => Keyed.insert a.legacy (PhaseRef.parse a.target) table) r.aliases
    ({ r with aliases }, .ok ())

/-- Indexes lifecycles at consecutive positions from `position` on. -/
def indexAll (r : LifecycleRegistry) (position : Nat) :
    List Lifecycle → LifecycleRegistry × Except Fault Unit
  | [] => (r, .ok ())
  | l :: rest =>
    match r.index position l with
    | (r, .error fault) => (r, .error fault)
    | (r, .ok ()) => r.indexAll (position + 1) rest

/-- Takes a lifecycle out and indexes the others anew. -/
def remove (r : LifecycleRegistry) (id : String) : LifecycleRegistry × Except Fault Unit :=
  let kept := r.lifecycles.eraseP (·.id == id)
  let cleared : LifecycleRegistry :=
    { orders := r.orders.filter fun entry => kept.any (·.id == entry.1) }
  match cleared.indexAll 0 kept with
  | (r, .error fault) => (r, .error fault)
  | (r, .ok ()) => ({ r with lifecycles := kept }, .ok ())

/-- Adds a lifecycle whose id is not in use. -/
def add (r : LifecycleRegistry) (l : Lifecycle) : LifecycleRegistry × Except Fault Unit :=
  match PhaseOrder.ofPhases l.phases with
  | .error fault => (r, .error (.unorderedLifecycle l.id fault))
  | .ok order =>
    match r.index r.lifecycles.length l with
    | (r, .error fault) => (r, .error fault)
    | (r, .ok ()) =>
      ({ r with
          lifecycles := r.lifecycles ++ [l]
          orders := Keyed.insert l.id order r.orders }, .ok ())

/-- Adds a lifecycle, in the place of one of the same id if there is one. -/
def register (r : LifecycleRegistry) (l : Lifecycle) : LifecycleRegistry × Except Fault Unit :=
  match l.duplicatePhases.head? with
  | some phase => (r, .error (.duplicatePhase phase l.id))
  | none =>
    if (r.get? l.id).isSome then
      match r.remove l.id with
      | (r, .error fault) => (r, .error fault)
      | (r, .ok ()) => r.add l
    else r.add l

/-- Registers lifecycles one after the other up to the first that is refused. -/
def registerAll (r : LifecycleRegistry) : List Lifecycle → Except Fault LifecycleRegistry
  | [] => .ok r
  | l :: rest =>
    match r.register l with
    | (_, .error fault) => .error fault
    | (r, .ok ()) => r.registerAll rest

/-! ### Questions -/

/-- The order of the execution points of a lifecycle. -/
def order (r : LifecycleRegistry) (id : String) : Except BuildError PhaseOrder :=
  match Keyed.find? id r.orders with
  | some order => .ok order
  | none => .error (Fault.unknownLifecycle id)

/-- The execution point that a text names. A bare name may be an alias. -/
def resolve (r : LifecycleRegistry) (raw : String) : PhaseRef :=
  let ref := PhaseRef.parse raw
  if ref.side = .during then (Keyed.find? ref.phase r.aliases).getD ref else ref

/-- The names of the phases of all lifecycles. -/
def allPhaseNames (r : LifecycleRegistry) : List String :=
  r.lifecycles.flatMap (·.phaseNames)

/-- The lifecycle that claims a name. -/
def lifecycleOf (r : LifecycleRegistry) (phase : String) : Except BuildError Lifecycle :=
  match (Keyed.find? phase r.owners).bind (r.lifecycles[·]?) with
  | some l => .ok l
  | none =>
    .error ((Fault.unknownPhase phase r.allPhaseNames : BuildError).withPhase phase)

end LifecycleRegistry

/-- Execution points that have been read, by their texts. -/
structure RefCache where
  entries : List (String × PhaseRef) := []
deriving Repr, Inhabited

namespace RefCache

/-- The number of texts that have been read. -/
def size (cache : RefCache) : Nat :=
  cache.entries.length

/-- The execution point of a text as it was when the text was first read. -/
def resolve (cache : RefCache) (registry : LifecycleRegistry) (raw : String) :
    PhaseRef × RefCache :=
  match Keyed.find? raw cache.entries with
  | some ref => (ref, cache)
  | none =>
    let ref := registry.resolve raw
    (ref, ⟨Keyed.insert raw ref cache.entries⟩)

end RefCache

end PhasedBuild
