import PhasedBuild.Proofs.Keyed
import PhasedBuild.Proofs.Lock.Pursuit

/-!
# Lanes that contend for locks

`LockTable.begin`, `LockTable.poll` and `LockTable.release` do several things at once. Here lanes
take sides of the aggregator lock and locks of units one by one, give them back in any order, and
give up waiting. Whatever they do to a lock is a step of its own: to ask for it, to join those who
wait for it, to look how often these have been called, to leave them, to give it back, and to call
them. Other lanes may come between any two of these steps.

A lane does one thing after the other. Before it asks again for a lock it looks how often those who
wait have been called, and if it is refused it goes on when they have been called since.

* `LockTable.ask?`, `enlist`, `withdraw`, `putBack` and `callAt` are what a step does to the locks.
  Each of them keeps the account of what is held (`LockTable.Accords`).
* `Contender` is a lane with what it holds and what it is at, `Contender.Moves` a step of it.
* `Contender.moves_begin`, `moves_poll`, `moves_release`: steps between which nobody comes are what
  `begin`, `poll` and `release` do with a request for one lock.
-/

namespace PhasedBuild

open Relation

/-! ### What steps do to the locks -/

/-- A lock of a build. -/
inductive LockName where
  | aggregator
  | unit (id : String)
deriving Repr, Inhabited, DecidableEq

/-- What a lane can ask a lock for. -/
inductive Want where
  /-- A side of the aggregator lock. -/
  | side (access : Access)
  /-- The lock of a unit. -/
  | unit (id : String)
deriving Repr, Inhabited, DecidableEq

namespace Want

/-- The lock that is asked. -/
def lock : Want → LockName
  | side _ => .aggregator
  | unit id => .unit id

/-- What a lane holds that has got what it wanted. -/
def hold (lane : Nat) : Want → Hold
  | side access => .side lane access
  | unit id => .unit lane id

/-- The lock for which a lane calls that waits no more. Others may have waited because of a writer
that did. -/
def callOnLeave? : Want → Option LockName
  | side .write => some .aggregator
  | side .read => none
  | unit _ => none

/-- How much it counts to wait for it. -/
def weight : Want → Nat
  | side access => access.weight
  | unit _ => 0

@[simp] theorem lock_side (access : Access) : (side access).lock = .aggregator := rfl

@[simp] theorem lock_unit (id : String) : (unit id).lock = .unit id := rfl

/-- A hold tells both the lane that has it and what the lane wanted. -/
theorem hold_inj {lane other : Nat} {want wanted : Want} (h : want.hold lane = wanted.hold other) :
    lane = other ∧ want = wanted := by
  cases want <;> cases wanted <;> simp_all [hold]

end Want

namespace UnitLock

/-- The lock given back once. -/
def giveBack (l : UnitLock) : UnitLock :=
  if l.depth ≤ 1 then { l with holder := none, depth := 0 } else { l with depth := l.depth - 1 }

/-- Calls those who wait. -/
def call (l : UnitLock) : UnitLock :=
  { l with calls := l.calls + 1 }

@[simp] theorem calls_call (l : UnitLock) : l.call.calls = l.calls + 1 := rfl

@[simp] theorem holder_call (l : UnitLock) : l.call.holder = l.holder := rfl

/-- Giving the lock of a unit back does not call anybody by itself. -/
@[simp] theorem calls_giveBack (l : UnitLock) : l.giveBack.calls = l.calls := by
  unfold giveBack
  split <;> rfl

/-- Releasing the lock of a unit is giving it back, and calling those who wait for it if it has
become free. -/
theorem release_eq (l : UnitLock) :
    l.release = if l.depth ≤ 1 then l.giveBack.call else l.giveBack := by
  unfold release giveBack call
  split
  next => rfl
  next => rfl

variable {l : UnitLock} {lanes : List Nat}

/-- A call does not change who has the lock. -/
theorem Accords.call (h : l.Accords lanes) : l.call.Accords lanes :=
  ⟨h.depth_eq, h.isSome_holder, h.lane_eq⟩

/-- Who gives the lock back leaves the list, whether or not those who wait are called afterwards. -/
theorem Accords.giveBack {lane : Nat} (h : l.Accords (lane :: lanes)) :
    l.giveBack.Accords lanes := by
  have hrelease := h.release
  rw [release_eq] at hrelease
  split at hrelease
  next => exact ⟨hrelease.depth_eq, hrelease.isSome_holder, hrelease.lane_eq⟩
  next => exact hrelease

end UnitLock

namespace AggregatorLock

/-- Notes that an acquisition waits no more. -/
def withdraw (l : AggregatorLock) : Access → AggregatorLock
  | .write => { l with waitingWriters := l.waitingWriters - 1 }
  | .read => l

/-- Giving a side back does not call anybody by itself. -/
@[simp] theorem calls_giveBack (l : AggregatorLock) (lane : Nat) (access : Access) :
    (l.giveBack lane access).calls = l.calls := by
  cases access with
  | read => rfl
  | write =>
    simp only [giveBack]
    split <;> rfl

/-- Who withdraws from the queue does not count as waiting any more. -/
theorem Accords.withdraw {l : AggregatorLock} {sides : List (Nat × Access)} {queued : Nat}
    {access : Access} (h : l.Accords sides (queued + access.weight)) :
    (l.withdraw access).Accords sides queued := by
  cases access with
  | read => exact h
  | write => exact { h with waitingWriters_eq := congrArg (· - 1) h.waitingWriters_eq }

end AggregatorLock

namespace LockTable

variable (t : LockTable)

/-- Takes what a lane asks for if that is possible now. -/
def ask? (owner : Owner) : Want → Option LockTable
  | .side access => t.acquireSide? owner access
  | .unit id => ((t.unitLock id).acquire? owner).map (t.setUnitLock id)

/-- A lane joins those who wait. -/
def enlist : Want → LockTable
  | .side access => { t with aggregator := t.aggregator.enqueue access }
  | .unit _ => t

/-- A lane leaves those who wait. -/
def withdraw : Want → LockTable
  | .side access => { t with aggregator := t.aggregator.withdraw access }
  | .unit _ => t

/-- A lane gives back once what it has got. -/
def putBack (lane : Nat) : Want → LockTable
  | .side access => { t with aggregator := t.aggregator.giveBack lane access }
  | .unit id => t.setUnitLock id (t.unitLock id).giveBack

/-- The lock for which a lane calls after it has given this back. The lock of a unit may be kept. -/
def callOnDrop? : Want → Option LockName
  | .side _ => some .aggregator
  | .unit id => if (t.unitLock id).depth ≤ 1 then some (.unit id) else none

/-- How often those who wait for a lock have been called. -/
def callsAt : LockName → Nat
  | .aggregator => t.aggregator.calls
  | .unit id => (t.unitLock id).calls

/-- Calls those who wait for a lock. -/
def callAt : LockName → LockTable
  | .aggregator => { t with aggregator := t.aggregator.call }
  | .unit id => t.setUnitLock id (t.unitLock id).call

variable {t} {t' : LockTable} {owner : Owner} {want : Want}

@[simp] theorem aggregator_setUnitLock (t : LockTable) (id : String) (l : UnitLock) :
    (t.setUnitLock id l).aggregator = t.aggregator := rfl

/-- The calls at the aggregator lock are its own. -/
@[simp] theorem callsAt_aggregator (t : LockTable) : t.callsAt .aggregator = t.aggregator.calls :=
  rfl

@[simp] theorem callsAt_unit (t : LockTable) (id : String) :
    t.callsAt (.unit id) = (t.unitLock id).calls := rfl

/-- Setting the lock of a unit changes the calls at that lock only. -/
theorem callsAt_setUnitLock (t : LockTable) (id : String) (l : UnitLock) (lock : LockName) :
    (t.setUnitLock id l).callsAt lock = if lock = .unit id then l.calls else t.callsAt lock := by
  cases lock with
  | aggregator => simp
  | unit other =>
    by_cases h : other = id
    · simp [h]
    · simp [h, unitLock_setUnitLock_of_ne h]

/-- A lane is refused a side exactly if the aggregator lock refuses it. -/
@[simp] theorem ask?_side_eq_none_iff {access : Access} :
    t.ask? owner (.side access) = none ↔ t.aggregator.acquire? owner access = none :=
  Option.map_eq_none_iff

/-- A lane is refused the lock of a unit exactly if that lock refuses it. -/
@[simp] theorem ask?_unit_eq_none_iff {id : String} :
    t.ask? owner (.unit id) = none ↔ (t.unitLock id).acquire? owner = none :=
  Option.map_eq_none_iff

/-- Those who wait for a lock are called once more. -/
theorem callsAt_callAt (t : LockTable) (lock : LockName) :
    (t.callAt lock).callsAt lock = t.callsAt lock + 1 := by
  cases lock with
  | aggregator => rfl
  | unit id => simp [callAt]

namespace Accords

variable {holds : List Hold} {queued : Nat}

/-- What happens to the lock of one unit beside the holds of others. -/
theorem exchange (h : t.Accords holds queued) {lane : Nat} {id : String} {l : UnitLock}
    (hl : l.Accords (lane :: Hold.lanesOn id holds)) :
    (t.setUnitLock id l).Accords (.unit lane id :: holds) queued := by
  refine h.setUnitLock (Hold.sides_unit _ _ _)
    (fun other hother => Hold.lanesOn_unit_of_ne (Ne.symm hother) _ _) ?_
  rwa [Hold.lanesOn_unit_self]

/-- What a lane gets is put on the list. -/
theorem ask? (h : t.Accords holds queued) (ht : t.ask? owner want = some t') :
    t'.Accords (want.hold owner.lane :: holds) queued := by
  cases want with
  | side access => exact h.acquireSide? ht
  | unit id =>
    obtain ⟨l, hl, rfl⟩ := Option.map_eq_some_iff.1 ht
    exact h.exchange ((h.unit id).acquire? hl)

/-- A lane that joins those who wait counts if it wants the write side. -/
theorem enlist (h : t.Accords holds queued) (want : Want) :
    (t.enlist want).Accords holds (queued + want.weight) := by
  cases want with
  | side access => exact h.enqueue access
  | unit id => exact h

/-- A lane that leaves those who wait does not count any more. -/
theorem withdraw (h : t.Accords holds (queued + want.weight)) :
    (t.withdraw want).Accords holds queued := by
  cases want with
  | side access => exact ⟨h.aggregator.withdraw, h.unit⟩
  | unit id => exact h

/-- What a lane puts back leaves the list. -/
theorem putBack {lane : Nat} (h : t.Accords (want.hold lane :: holds) queued) :
    (t.putBack lane want).Accords holds queued := by
  cases want with
  | side access => exact ⟨h.aggregator.giveBack, h.unit⟩
  | unit id =>
    have hid : (t.unitLock id).Accords (lane :: Hold.lanesOn id holds) := by
      rw [← Hold.lanesOn_unit_self]
      exact h.unit id
    exact h.setUnitLock (Hold.sides_unit _ _ _).symm
      (fun other hother => (Hold.lanesOn_unit_of_ne (Ne.symm hother) _ _).symm) hid.giveBack

/-- A call changes nothing that has been taken, and nobody's place in the queue. -/
theorem callAt (h : t.Accords holds queued) (lock : LockName) :
    (t.callAt lock).Accords holds queued := by
  cases lock with
  | aggregator => exact ⟨{ h.aggregator with }, h.unit⟩
  | unit id => exact h.setUnitLock rfl (fun _ _ => rfl) (h.unit id).call

end Accords

end LockTable

/-! ### Lanes and their steps -/

/-- What a lane is at. -/
inductive Errand where
  /-- It is at nothing. -/
  | idle
  /-- It asks for something, and has come so far. -/
  | asking (owner : Owner) (want : Want) (quest : Quest)
  /-- It is about to call those who wait for a lock. -/
  | calling (lock : LockName)
deriving Repr, Inhabited, DecidableEq

namespace Errand

/-- What a lane is at that has a call to make, or none. -/
def ofCall : Option LockName → Errand
  | none => idle
  | some lock => calling lock

/-- The lane in whose name something is asked for. -/
def IsOf (lane : Nat) : Errand → Prop
  | idle => True
  | asking owner _ _ => owner.lane = lane
  | calling _ => True

/-- Whether a lane has joined those who wait for the write side, and has not left them. -/
def isQueuedWriter : Errand → Bool
  | asking _ (.side .write) quest => quest.isQueued
  | _ => false

/-- Whether a lane has joined those who wait for the write side and has not got it yet. -/
def isPendingWriter : Errand → Bool
  | asking _ (.side .write) quest => quest.isQueued && quest != .admitted
  | _ => false

/-- Whether a lane has got the write side and has not left those who wait for it yet. -/
def isAdmittedWriter : Errand → Bool
  | asking _ (.side .write) quest => quest == .admitted
  | _ => false

/-- How much a lane counts as waiting for the write side. -/
def weight : Errand → Nat
  | idle => 0
  | asking _ want quest => if quest.isQueued then want.weight else 0
  | calling _ => 0

/-- A lane counts as waiting for the write side exactly if it is in the queue of writers. -/
theorem weight_eq (errand : Errand) :
    errand.weight = if errand.isQueuedWriter then 1 else 0 := by
  rcases errand with _ | ⟨owner, ⟨access⟩ | ⟨id⟩, quest⟩ | ⟨lock⟩
  · rfl
  · cases access with
    | read => exact ite_self 0
    | write => rfl
  · exact ite_self 0
  · rfl

/-- A lane is in the queue of writers until it has got the write side, and then until it leaves. -/
theorem count_isQueuedWriter (errand : Errand) : (if errand.isQueuedWriter then 1 else 0) =
    (if errand.isPendingWriter then 1 else 0) + (if errand.isAdmittedWriter then 1 else 0) := by
  rcases errand with _ | ⟨owner, ⟨access⟩ | ⟨id⟩, quest⟩ | ⟨lock⟩
  · rfl
  · cases access with
    | read => rfl
    | write => cases quest <;> rfl
  · rfl
  · rfl

/-- A lane that has a call to make, or nothing to do, does not wait for the write side. -/
@[simp] theorem weight_ofCall (call : Option LockName) : (ofCall call).weight = 0 := by
  cases call <;> rfl

/-- A call that is to be made is in nobody's name. -/
theorem isOf_ofCall (lane : Nat) (call : Option LockName) : (ofCall call).IsOf lane := by
  cases call <;> trivial

end Errand

/-- A lane, with what it has taken and not given back, each as often as it has taken it. -/
structure Contender where
  lane : Nat
  held : List Want := []
  errand : Errand := .idle
deriving Repr, Inhabited, DecidableEq

namespace Contender

/-- What a lane holds. -/
def holds (p : Contender) : List Hold :=
  p.held.map (Want.hold p.lane)

/-- A step of a lane, and what it does to the locks. -/
inductive Moves : LockTable × Contender → LockTable × Contender → Prop
  /-- It comes to ask for something. -/
  | ask {owner : Owner} (t : LockTable) (lane : Nat) (held : List Want) (want : Want) :
    owner.lane = lane →
    Moves (t, ⟨lane, held, .idle⟩) (t, ⟨lane, held, .asking owner want .first⟩)
  /-- It gets it at once. -/
  | take {t t' : LockTable} {lane : Nat} {held : List Want} {owner : Owner} {want : Want} :
    t.ask? owner want = some t' →
    Moves (t, ⟨lane, held, .asking owner want .first⟩) (t', ⟨lane, want :: held, .idle⟩)
  | refuse {t : LockTable} {lane : Nat} {held : List Want} {owner : Owner} {want : Want} :
    t.ask? owner want = none →
    Moves (t, ⟨lane, held, .asking owner want .first⟩)
      (t, ⟨lane, held, .asking owner want .refused⟩)
  | enlist {t : LockTable} {lane : Nat} {held : List Want} {owner : Owner} {want : Want} :
    Moves (t, ⟨lane, held, .asking owner want .refused⟩)
      (t.enlist want, ⟨lane, held, .asking owner want .joined⟩)
  | look {t : LockTable} {lane : Nat} {held : List Want} {owner : Owner} {want : Want} :
    Moves (t, ⟨lane, held, .asking owner want .joined⟩)
      (t, ⟨lane, held, .asking owner want (.again (t.callsAt want.lock))⟩)
  /-- It gets it after it has waited. -/
  | gain {t t' : LockTable} {lane : Nat} {held : List Want} {owner : Owner} {want : Want}
    {calls : Nat} : t.ask? owner want = some t' →
    Moves (t, ⟨lane, held, .asking owner want (.again calls)⟩)
      (t', ⟨lane, want :: held, .asking owner want .admitted⟩)
  | wait {t : LockTable} {lane : Nat} {held : List Want} {owner : Owner} {want : Want}
    {calls : Nat} : t.ask? owner want = none →
    Moves (t, ⟨lane, held, .asking owner want (.again calls)⟩)
      (t, ⟨lane, held, .asking owner want (.waiting calls)⟩)
  /-- It has been called. -/
  | wake {t : LockTable} {lane : Nat} {held : List Want} {owner : Owner} {want : Want}
    {calls : Nat} : t.callsAt want.lock ≠ calls →
    Moves (t, ⟨lane, held, .asking owner want (.waiting calls)⟩)
      (t, ⟨lane, held, .asking owner want .joined⟩)
  /-- It gives up waiting. -/
  | cancel {t : LockTable} {lane : Nat} {held : List Want} {owner : Owner} {want : Want}
    {calls : Nat} :
    Moves (t, ⟨lane, held, .asking owner want (.waiting calls)⟩)
      (t.withdraw want, ⟨lane, held, .ofCall want.callOnLeave?⟩)
  | leave {t : LockTable} {lane : Nat} {held : List Want} {owner : Owner} {want : Want} :
    Moves (t, ⟨lane, held, .asking owner want .admitted⟩)
      (t.withdraw want, ⟨lane, held, .ofCall want.callOnLeave?⟩)
  /-- It gives back something that it holds. -/
  | drop {t : LockTable} {lane : Nat} {held : List Want} {want : Want} : want ∈ held →
    Moves (t, ⟨lane, held, .idle⟩)
      (t.putBack lane want, ⟨lane, held.erase want, .ofCall (t.callOnDrop? want)⟩)
  | call {t : LockTable} {lane : Nat} {held : List Want} {lock : LockName} :
    Moves (t, ⟨lane, held, .calling lock⟩) (t.callAt lock, ⟨lane, held, .idle⟩)

variable {t t' : LockTable} {lane : Nat} {held : List Want} {owner : Owner} {want : Want}
  {calls : Nat}

/-- A lane that is about to leave those who wait for something has got it. -/
def HasAdmitted (p : Contender) : Prop :=
  ∀ owner want, p.errand = .asking owner want .admitted → want ∈ p.held

/-- A lane that only has a call to make has not been admitted to anything. -/
theorem hasAdmitted_ofCall (lane : Nat) (held : List Want) (call : Option LockName) :
    HasAdmitted ⟨lane, held, .ofCall call⟩ := by
  cases call <;> exact nofun

/-- Whatever a lane does, it comes to leave those who wait with what it waited for. -/
theorem Moves.hasAdmitted {p p' : Contender} (hmoves : Moves (t, p) (t', p')) :
    p'.HasAdmitted := by
  cases hmoves with
  | gain _ =>
    rintro _ _ ⟨⟩
    exact List.mem_cons_self
  | ask => exact nofun
  | take _ => exact nofun
  | refuse _ => exact nofun
  | enlist => exact nofun
  | look => exact nofun
  | wait _ => exact nofun
  | wake _ => exact nofun
  | cancel => exact hasAdmitted_ofCall _ _ _
  | leave => exact hasAdmitted_ofCall _ _ _
  | drop _ => exact hasAdmitted_ofCall _ _ _
  | call => exact nofun

/-- A step keeps the account of what a lane holds beside others. -/
theorem Moves.accords {p p' : Contender} {holds : List Hold} {queued : Nat}
    (hmoves : Moves (t, p) (t', p')) (hp : p.errand.IsOf p.lane)
    (h : t.Accords (p.holds ++ holds) (queued + p.errand.weight)) :
    t'.Accords (p'.holds ++ holds) (queued + p'.errand.weight) := by
  cases hmoves with
  | ask => exact h
  | take ht =>
    obtain rfl := hp
    exact h.ask? ht
  | refuse _ => exact h
  | enlist => exact LockTable.Accords.enlist h _
  | look => exact h
  | gain ht =>
    obtain rfl := hp
    exact h.ask? ht
  | wait _ => exact h
  | wake _ => exact h
  | cancel =>
    rw [Errand.weight_ofCall]
    exact LockTable.Accords.withdraw h
  | leave =>
    rw [Errand.weight_ofCall]
    exact LockTable.Accords.withdraw h
  | @drop _ lane _ _ hmem =>
    rw [Errand.weight_ofCall]
    have hperm := ((List.perm_cons_erase hmem).map (Want.hold lane)).append_right holds
    exact (h.of_perm hperm).putBack
  | call => exact LockTable.Accords.callAt h _

end Contender

/-! ### Steps and what is done at once -/

namespace LockTable

variable {t : LockTable} {owner : Owner}

/-- It makes no difference to a lane that it has joined those who wait. -/
theorem ask?_enlist {want : Want} (h : t.ask? owner want = none) :
    (t.enlist want).ask? owner want = none := by
  cases want with
  | unit id => exact h
  | side access =>
    have hside : t.take? owner access .side = none := h
    exact take?_join hside

/-- Joining those who wait calls nobody. -/
theorem callsAt_enlist (t : LockTable) (want : Want) (lock : LockName) :
    (t.enlist want).callsAt lock = t.callsAt lock := by
  rcases want with ⟨_ | _⟩ | ⟨id⟩ <;> rfl

/-- A lane leaves those who wait and calls those that it may have kept waiting. -/
def quit (t : LockTable) : Want → LockTable
  | .side access => { t with aggregator := t.aggregator.dequeue access }
  | .unit _ => t

/-- A lane gives back what it has got and calls those who wait if that is called for. -/
def restore (t : LockTable) (lane : Nat) : Want → LockTable
  | .side access => { t with aggregator := t.aggregator.release lane access }
  | .unit id => t.releaseUnit id

end LockTable

/-- The lock that a request asks for if it asks for one only. -/
def LockRequest.want? (owner : Owner) : LockRequest → Option Want
  | unit => some (.unit owner.unit)
  | aggregator access => some (.side access)
  | step _ => none

namespace Contender

variable {t t' : LockTable} {lane : Nat} {held : List Want} {owner : Owner} {want : Want}
  {calls : Nat}

/-- The lane of an acquisition of one lock, where it holds something else. -/
def of? (held : List Want) : Acquisition → Option Contender
  | .empty => none
  | .held owner request => (request.want? owner).map fun want =>
    { lane := owner.lane, held := want :: held }
  | .waiting owner request calls => (request.want? owner).map fun want =>
    { lane := owner.lane, held, errand := .asking owner want (.waiting calls) }
  | .waitingInside _ _ _ => none

/-- Asking once and getting a lock at once takes two small steps: the lane asks and is granted. -/
theorem moves_take (held : List Want) (h : t.ask? owner want = some t') :
    ReflTransGen Moves (t, ⟨owner.lane, held, .idle⟩) (t', ⟨owner.lane, want :: held, .idle⟩) :=
  .head (.ask t _ held want rfl) (.single (.take h))

/-- A lane that asks in vain comes to wait. -/
theorem moves_waiting (held : List Want) (h : t.ask? owner want = none) :
    ReflTransGen Moves (t, ⟨owner.lane, held, .idle⟩)
      (t.enlist want,
        ⟨owner.lane, held, .asking owner want (.waiting (t.callsAt want.lock))⟩) := by
  have hjoined : ReflTransGen Moves (t, ⟨owner.lane, held, .idle⟩)
      (t.enlist want, ⟨owner.lane, held, .asking owner want .joined⟩) :=
    .head (.ask t _ held want rfl) (.head (.refuse h) (.single .enlist))
  rw [← t.callsAt_enlist want]
  exact hjoined.trans (.head .look (.single (.wait (LockTable.ask?_enlist h))))

/-- A lane that leaves those who wait has done so when it has called others as well. -/
theorem moves_quit {errand : Errand}
    (h : Moves (t, ⟨lane, held, errand⟩)
      (t.withdraw want, ⟨lane, held, .ofCall want.callOnLeave?⟩)) :
    ReflTransGen Moves (t, ⟨lane, held, errand⟩) (t.quit want, ⟨lane, held, .idle⟩) := by
  rcases want with ⟨_ | _⟩ | ⟨id⟩
  · exact .single h
  · exact .head h (.single .call)
  · exact .single h

/-- A lane that has been called gets what it waits for and leaves those who wait. -/
theorem moves_gain (held : List Want) (hcalls : t.callsAt want.lock ≠ calls)
    (h : t.ask? owner want = some t') :
    ReflTransGen Moves (t, ⟨owner.lane, held, .asking owner want (.waiting calls)⟩)
      (t'.quit want, ⟨owner.lane, want :: held, .idle⟩) :=
  .head (.wake hcalls) (.head .look (.head (.gain h) (moves_quit .leave)))

/-- A lane that has been called and is refused waits as before. -/
theorem moves_wait (held : List Want) (hcalls : t.callsAt want.lock ≠ calls)
    (h : t.ask? owner want = none) :
    ReflTransGen Moves (t, ⟨owner.lane, held, .asking owner want (.waiting calls)⟩)
      (t, ⟨owner.lane, held, .asking owner want (.waiting (t.callsAt want.lock))⟩) :=
  .head (.wake hcalls) (.head .look (.single (.wait h)))

/-- Giving a lock back whole is putting it back and then making the call that may be due. -/
theorem moves_restore (t : LockTable) (lane : Nat) (want : Want) (held : List Want) :
    ReflTransGen Moves (t, ⟨lane, want :: held, .idle⟩)
      (t.restore lane want, ⟨lane, held, .idle⟩) := by
  have hdrop : Moves (t, ⟨lane, want :: held, .idle⟩)
      (t.putBack lane want, ⟨lane, held, .ofCall (t.callOnDrop? want)⟩) := by
    have hmoves : Moves (t, ⟨lane, want :: held, .idle⟩)
        (t.putBack lane want,
          ⟨lane, (want :: held).erase want, .ofCall (t.callOnDrop? want)⟩) :=
      .drop List.mem_cons_self
    rwa [List.erase_cons_head] at hmoves
  cases want with
  | side access => exact .head hdrop (.single .call)
  | unit id =>
    have hrestore : t.restore lane (.unit id) =
        if (t.unitLock id).depth ≤ 1 then (t.putBack lane (.unit id)).callAt (.unit id)
        else t.putBack lane (.unit id) := by
      simp only [LockTable.restore, LockTable.releaseUnit, UnitLock.release_eq, LockTable.putBack,
        LockTable.callAt, LockTable.unitLock_setUnitLock_self]
      split
      next => simp [LockTable.setUnitLock]
      next => rfl
    rw [hrestore]
    unfold LockTable.callOnDrop? at hdrop
    simp only at hdrop
    split at hdrop
    next hdepth =>
      rw [if_pos hdepth]
      exact .head hdrop (.single .call)
    next hdepth =>
      rw [if_neg hdepth]
      exact .single hdrop

/-- To begin with a request for one lock is to go on in steps until the lane has it or has to
wait. -/
theorem moves_begin (t : LockTable) (held : List Want) {request : LockRequest}
    (hwant : request.want? owner = some want) :
    ∃ p, of? held (t.begin owner request).2.1 = some p ∧
      ReflTransGen Moves (t, ⟨owner.lane, held, .idle⟩) ((t.begin owner request).1, p) := by
  cases request with
  | step access => cases hwant
  | unit =>
    unfold LockTable.begin
    simp only
    split
    next t' ht => exact ⟨_, rfl, moves_take held ht⟩
    next ht =>
      have hask : t.ask? owner (.unit owner.unit) = none := ht
      exact ⟨_, rfl, moves_waiting held hask⟩
  | aggregator access =>
    unfold LockTable.begin LockTable.beginSide
    simp only
    split
    next t' ht => exact ⟨_, rfl, moves_take held ht⟩
    next ht =>
      have hask : t.ask? owner (.side access) = none := ht
      exact ⟨_, rfl, moves_waiting held hask⟩

/-- So it is with a request that is tried again. -/
theorem moves_poll (t : LockTable) {a : Acquisition} {p : Contender} (ha : of? held a = some p) :
    ∃ p', of? held (t.poll a).2.1 = some p' ∧ ReflTransGen Moves (t, p) ((t.poll a).1, p') := by
  have hkept : ∃ p', of? held a = some p' ∧ ReflTransGen Moves (t, p) (t, p') := ⟨p, ha, .refl⟩
  cases a with
  | empty => cases ha
  | held _ _ => exact hkept
  | waitingInside _ _ _ => cases ha
  | waiting owner request calls =>
    cases request with
    | step access => cases ha
    | unit =>
      obtain rfl := Option.some.inj ha
      rw [LockTable.poll]
      split
      next => exact hkept
      next hcalls =>
        unfold LockTable.retryUnit
        split
        next t' ht => exact ⟨_, rfl, moves_gain held hcalls ht⟩
        next ht => exact ⟨_, rfl, moves_wait held hcalls ht⟩
    | aggregator access =>
      obtain rfl := Option.some.inj ha
      rw [LockTable.poll]
      split
      next => exact hkept
      next hcalls =>
        unfold LockTable.retrySide
        split
        next t' ht => exact ⟨_, rfl, moves_gain held hcalls ht⟩
        next ht => exact ⟨_, rfl, moves_wait held hcalls ht⟩

/-- An acquisition of one lock that is ended gives it back, or gives up waiting for it. -/
theorem moves_release (t : LockTable) {a : Acquisition} {p : Contender}
    (ha : of? held a = some p) :
    ReflTransGen Moves (t, p) (t.release a, ⟨p.lane, held, .idle⟩) := by
  cases a with
  | empty => cases ha
  | waitingInside _ _ _ => cases ha
  | held owner request =>
    cases request with
    | step access => cases ha
    | unit =>
      obtain rfl := Option.some.inj ha
      exact moves_restore t owner.lane (.unit owner.unit) held
    | aggregator access =>
      obtain rfl := Option.some.inj ha
      exact moves_restore t owner.lane (.side access) held
  | waiting owner request calls =>
    cases request with
    | step access => cases ha
    | unit =>
      obtain rfl := Option.some.inj ha
      exact moves_quit .cancel
    | aggregator access =>
      obtain rfl := Option.some.inj ha
      exact moves_quit .cancel

end Contender

end PhasedBuild
