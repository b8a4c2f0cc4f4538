import Mathlib.Algebra.GroupWithZero.Nat
import Mathlib.Algebra.Order.BigOperators.Group.List
import Mathlib.Data.String.Basic
import PhasedBuild.Lock.Record
import PhasedBuild.Proofs.Keyed
import PhasedBuild.Proofs.Lock.Holds

/-!
# Locks that are taken and given back in any order

The acquisitions of `LockSlots` have names, and every one of them can be started, let try again and
ended at any time. So a lane may have several sides and locks at once and give them back in any
order.

* `SlotCommand` is an operation on a name, `LockSlots.after` what a list of them does.
* `LockSlots.Sound` ties the locks to the acquisitions: what these hold is what has been taken, and
  those of them that wait for the write side are those that are counted as waiting.
* `LockSlots.locks_count_their_holds`: what that means for every lock, after any commands.
-/

namespace PhasedBuild

/-! ### What acquisitions hold -/

namespace LockRequest

/-- How much a request counts as waiting for the write side while its first lock is not there. -/
def weight : LockRequest → Nat
  | unit => 0
  | aggregator access => access.weight
  | step access => access.weight

/-- What a request comes to when all that it asks for is there. -/
def holds (owner : Owner) : LockRequest → List Hold
  | unit => [.unit owner.lane owner.unit]
  | aggregator access => [.side owner.lane access]
  | step access => [.unit owner.lane owner.unit, .side owner.lane access]

end LockRequest

namespace Acquisition

/-- What an acquisition holds. -/
def holds : Acquisition → List Hold
  | empty => []
  | held owner request => request.holds owner
  | waiting _ _ _ => []
  | waitingInside owner access _ => [.side owner.lane access]

/-- How much an acquisition counts as waiting for the write side. -/
def weight : Acquisition → Nat
  | empty => 0
  | held _ _ => 0
  | waiting _ request _ => request.weight
  | waitingInside _ _ _ => 0

end Acquisition

namespace LockTable

/-- The locks accord with what becomes of an acquisition beside others. -/
def Suits (holds : List Hold) (queued : Nat) (outcome : LockTable × Acquisition × List String) :
    Prop :=
  outcome.1.Accords (outcome.2.1.holds ++ holds) (queued + outcome.2.1.weight)

section goingOn

variable {t : LockTable} {holds : List Hold} {queued : Nat} (owner : Owner) (access : Access)

/-- A step that has its side goes on to hold the lock of its unit as well, or has just its side. -/
theorem suits_enterUnit (h : t.Accords (.side owner.lane access :: holds) queued) :
    Suits holds queued (t.enterUnit owner access) := by
  unfold enterUnit
  simp only
  split
  next t' ht => exact h.acquireUnit? ht
  next => exact h

/-- A request for a side ends with it, or goes on with a step. -/
theorem suits_enterSide {request : LockRequest}
    (hrequest : request = .aggregator access ∨ request = .step access)
    (h : t.Accords (.side owner.lane access :: holds) queued) :
    Suits holds queued (t.enterSide owner request access) := by
  rcases hrequest with rfl | rfl
  · exact h
  · exact suits_enterUnit owner access h

/-- The first attempt at a side keeps the record in step with the locks, whether the side is got or
the acquisition joins those who wait. -/
theorem suits_beginSide {request : LockRequest}
    (hrequest : request = .aggregator access ∨ request = .step access)
    (h : t.Accords holds queued) : Suits holds queued (t.beginSide owner request access) := by
  unfold beginSide
  split
  next t' ht => exact suits_enterSide owner access hrequest (h.acquireSide? ht)
  next =>
    have hweight : request.weight = access.weight := by rcases hrequest with rfl | rfl <;> rfl
    show LockTable.Accords _ holds (queued + request.weight)
    rw [hweight]
    exact h.enqueue access

/-- A further attempt at a side keeps the record in step with the locks. Who gets the side leaves
the queue. -/
theorem suits_retrySide {request : LockRequest}
    (hrequest : request = .aggregator access ∨ request = .step access)
    (h : t.Accords holds (queued + access.weight)) :
    Suits holds queued (t.retrySide owner request access) := by
  unfold retrySide
  split
  next t' ht => exact suits_enterSide owner access hrequest (h.acquireSide? ht).dequeue
  next =>
    have hweight : request.weight = access.weight := by rcases hrequest with rfl | rfl <;> rfl
    show LockTable.Accords _ holds (queued + request.weight)
    rw [hweight]
    exact h

/-- An attempt at the lock of a unit keeps the record in step with the locks. What the acquisition
held before it still holds when it waits. -/
theorem suits_retryUnit (request : LockRequest) {waiting : Nat → Acquisition} {kept : List Hold}
    (hheld : request.holds owner = .unit owner.lane owner.unit :: kept)
    (hkept : ∀ calls, (waiting calls).holds = kept) (hweight : ∀ calls, (waiting calls).weight = 0)
    (h : t.Accords (kept ++ holds) queued) :
    Suits holds queued (t.retryUnit owner request waiting) := by
  unfold retryUnit
  split
  next t' ht =>
    show t'.Accords (request.holds owner ++ holds) queued
    rw [hheld]
    exact h.acquireUnit? ht
  next =>
    show t.Accords ((waiting _).holds ++ holds) (queued + (waiting _).weight)
    rw [hkept, hweight]
    exact h

end goingOn

variable {t : LockTable} {holds : List Hold} {queued : Nat}

/-- Whatever an acquisition wants, its first attempt keeps the record in step with the locks. -/
theorem suits_begin (owner : Owner) (request : LockRequest) (h : t.Accords holds queued) :
    Suits holds queued (t.begin owner request) := by
  cases request with
  | unit =>
    unfold begin
    simp only
    split
    next t' ht => exact h.acquireUnit? ht
    next => exact h
  | aggregator access => exact suits_beginSide owner access (.inl rfl) h
  | step access => exact suits_beginSide owner access (.inr rfl) h

/-- An acquisition that has not been called stays as it is, and so does one that has all that it
asked for. -/
theorem suits_poll {a : Acquisition} (h : t.Accords (a.holds ++ holds) (queued + a.weight)) :
    Suits holds queued (t.poll a) := by
  fun_cases LockTable.poll t a with
  | case1 => exact h
  | case2 owner calls =>
    exact suits_retryUnit owner .unit rfl (fun _ => rfl) (fun _ => rfl) h
  | case3 => exact h
  | case4 owner access calls => exact suits_retrySide owner access (.inl rfl) h
  | case5 => exact h
  | case6 owner access calls => exact suits_retrySide owner access (.inr rfl) h
  | case7 => exact h
  | case8 owner access calls =>
    exact suits_retryUnit owner (.step access) rfl (fun _ => rfl) (fun _ => rfl) h
  | case9 => exact h
  | case10 => exact h

/-- An acquisition that ends leaves what the others hold. -/
theorem accords_release {a : Acquisition} (h : t.Accords (a.holds ++ holds) (queued + a.weight)) :
    (t.release a).Accords holds queued := by
  cases a with
  | empty => exact h
  | held owner request =>
    cases request with
    | unit => exact h.releaseUnit
    | aggregator access => exact h.releaseSide
    | step access => exact h.releaseUnit.releaseSide
  | waiting owner request calls =>
    cases request with
    | unit => exact h
    | aggregator access => exact h.dequeue
    | step access => exact h.dequeue
  | waitingInside owner access calls => exact h.releaseSide

end LockTable

/-! ### Acquisitions under names -/

/-- An operation on a name. -/
inductive SlotCommand where
  /-- An acquisition is started, which may have to wait. -/
  | start (name : String) (owner : Owner) (request : LockRequest)
  /-- An acquisition is made at once or not at all. -/
  | attempt (name : String) (owner : Owner) (request : LockRequest)
  /-- The acquisition of nothing. -/
  | startEmpty (name : String) (owner : Owner)
  /-- An acquisition is tried again. -/
  | poll (name : String)
  /-- An acquisition is ended, and what it holds is given back. -/
  | release (name : String)
deriving Repr, Inhabited, DecidableEq

namespace LockSlots

/-- Carries out a command. -/
def perform (s : LockSlots) : SlotCommand → Outcome
  | .start name owner request => s.start name owner request
  | .attempt name owner request => s.attempt name owner request
  | .startEmpty name owner => s.startEmpty name owner
  | .poll name => s.poll name
  | .release name => s.release name

/-- What commands bring acquisitions to. -/
def after (s : LockSlots) (commands : List SlotCommand) : LockSlots :=
  commands.foldl (fun s command => (s.perform command).1) s

/-- What all acquisitions hold. -/
def holds (s : LockSlots) : List Hold :=
  s.slots.flatMap (·.2.holds)

/-- How much all acquisitions count as waiting for the write side. -/
def weight (s : LockSlots) : Nat :=
  (s.slots.map (·.2.weight)).sum

/-- The names are in order, and what has been taken from the locks is what the acquisitions hold. -/
structure Sound (s : LockSlots) : Prop where
  sorted : Keyed.IsSorted s.slots
  accords : s.table.Accords s.holds s.weight

/-- An empty record is in step with locks that nobody has taken. -/
theorem sound_empty : ({} : LockSlots).Sound :=
  ⟨.nil, LockTable.accords_free⟩

namespace Sound

variable {s : LockSlots} {name : String}

/-- Noting an owner touches neither the locks nor the acquisitions. -/
theorem note (h : s.Sound) (owner : Owner) : (s.note owner).Sound := by
  unfold LockSlots.note
  split
  next => exact h
  next => exact ⟨h.sorted, h.accords⟩

/-- What becomes of the acquisition of a name takes its place. -/
theorem settle (h : s.Sound) {outcome : LockTable × Acquisition × List String}
    (houtcome : LockTable.Suits ((Keyed.erase name s.slots).flatMap (·.2.holds))
      ((Keyed.erase name s.slots).map (·.2.weight)).sum outcome) :
    (s.settle name outcome).1.Sound := by
  obtain ⟨table, acquisition, messages⟩ := outcome
  have hperm := Keyed.insert_perm h.sorted name acquisition
  have hweight : ((Keyed.insert name acquisition s.slots).map (·.2.weight)).sum =
      ((Keyed.erase name s.slots).map (·.2.weight)).sum + acquisition.weight := by
    rw [(hperm.map _).sum_nat, List.map_cons, List.sum_cons, Nat.add_comm]
  refine ⟨h.sorted.insert name acquisition, ?_⟩
  show table.Accords ((Keyed.insert name acquisition s.slots).flatMap (·.2.holds))
    ((Keyed.insert name acquisition s.slots).map (·.2.weight)).sum
  rw [hweight]
  have hholds : (acquisition.holds ++ (Keyed.erase name s.slots).flatMap (·.2.holds)).Perm
      ((Keyed.insert name acquisition s.slots).flatMap (·.2.holds)) :=
    (hperm.flatMap_right fun slot : String × Acquisition => slot.2.holds).symm
  exact LockTable.Accords.of_perm houtcome hholds

/-- What is started under a free name comes beside all others. -/
theorem settle_of_free (h : s.Sound) (hfree : s.isInUse name = false)
    (outcome : LockTable × Acquisition × List String)
    (houtcome : LockTable.Suits s.holds s.weight outcome) : (s.settle name outcome).1.Sound := by
  have hkept := Keyed.erase_eq_self_of_not_contains hfree
  refine h.settle ?_
  rw [hkept]
  exact houtcome

/-- An acquisition is taken out of those that there are. -/
theorem accords_of_find? (h : s.Sound) {a : Acquisition}
    (hfind : Keyed.find? name s.slots = some a) :
    s.table.Accords (a.holds ++ (Keyed.erase name s.slots).flatMap (·.2.holds))
      (((Keyed.erase name s.slots).map (·.2.weight)).sum + a.weight) := by
  have hperm := Keyed.perm_of_find? h.sorted hfind
  have hweight : s.weight = ((Keyed.erase name s.slots).map (·.2.weight)).sum + a.weight := by
    rw [LockSlots.weight, (hperm.map _).sum_nat, List.map_cons, List.sum_cons, Nat.add_comm]
  rw [← hweight]
  exact h.accords.of_perm (hperm.flatMap_right _)

/-- An operation under a name keeps the record in step: while the name is in use it is refused and
changes nothing. -/
theorem enter (h : s.Sound) {owner : Owner} {act : LockSlots → Outcome}
    (hact : ∀ s : LockSlots, s.Sound → s.isInUse name = false → (act s).1.Sound) :
    (s.enter name owner act).1.Sound := by
  unfold LockSlots.enter
  split
  next => exact h
  next hfree =>
    refine hact _ (h.note owner) ?_
    have hslots : (s.note owner).slots = s.slots := by
      unfold LockSlots.note
      split <;> rfl
    rw [isInUse, hslots]
    exact Bool.eq_false_iff.2 hfree

/-- Every command keeps the record in step with the locks. -/
theorem perform (h : s.Sound) (command : SlotCommand) : (s.perform command).1.Sound := by
  cases command with
  | start name owner request =>
    exact h.enter fun s h hfree =>
      h.settle_of_free hfree _ (LockTable.suits_begin owner request h.accords)
  | attempt name owner request =>
    refine h.enter fun s h hfree => ?_
    have hbegin := LockTable.suits_begin owner request h.accords
    split
    next table owner' request' messages heq =>
      rw [heq] at hbegin
      exact h.settle_of_free hfree (table, .held owner' request', []) hbegin
    next => exact h
  | startEmpty name owner =>
    exact h.enter fun s h hfree => h.settle_of_free hfree (s.table, .empty, []) h.accords
  | poll name =>
    show (s.poll name).1.Sound
    unfold LockSlots.poll
    split
    next => exact h
    next a hfind => exact h.settle (LockTable.suits_poll (h.accords_of_find? hfind))
  | release name =>
    show (s.release name).1.Sound
    unfold LockSlots.release
    split
    next => exact h
    next a hfind =>
      exact ⟨h.sorted.erase name, LockTable.accords_release (h.accords_of_find? hfind)⟩

/-- Any sequence of commands keeps the record in step with the locks. -/
theorem after (h : s.Sound) (commands : List SlotCommand) : (s.after commands).Sound := by
  induction commands generalizing s with
  | nil => exact h
  | cons command rest ih => exact ih (h.perform command)

end Sound

end LockSlots

/-! ### What the counters of locks say -/

namespace Hold

/-- Whether it is the write side. -/
def isWriting : Hold → Bool
  | side _ .write => true
  | side _ .read => false
  | unit _ _ => false

/-- Whether it is the lock of a unit. -/
def isOn (id : String) : Hold → Bool
  | side _ _ => false
  | unit _ other => other = id

/-- A side is counted as often as it is held. -/
theorem count_sides (side : Nat × Access) (holds : List Hold) :
    (sides holds).count side = holds.count (.side side.1 side.2) := by
  unfold sides
  rw [List.count_filterMap]
  refine List.countP_congr fun hold _ => ?_
  cases hold <;> simp [side?, Prod.ext_iff]

/-- The write sides are counted as often as they are held. -/
theorem countP_sides (holds : List Hold) :
    (sides holds).countP (·.2 = .write) = holds.countP isWriting := by
  unfold sides
  rw [List.countP_filterMap]
  refine List.countP_congr fun hold _ => ?_
  rcases hold with ⟨lane, _ | _⟩ | ⟨lane, other⟩ <;> simp [side?, isWriting]

/-- The list of a unit is as long as its lock is held. -/
theorem length_lanesOn (id : String) (holds : List Hold) :
    (lanesOn id holds).length = holds.countP (isOn id) := by
  unfold lanesOn
  rw [List.length_filterMap_eq_countP]
  refine List.countP_congr fun hold _ => ?_
  rcases hold with ⟨lane, access⟩ | ⟨lane, other⟩ <;> simp [on?, isOn]

end Hold

namespace LockTable

/-- The locks say of every hold how often it is there, and holds that exclude each other are not
there together. -/
structure Counts (t : LockTable) (holds : List Hold) : Prop where
  /-- Who holds the write side holds it against all other lanes. -/
  eq_of_write : ∀ lane, .side lane .write ∈ holds → ∀ other access, .side other access ∈ holds →
    other = lane
  /-- There is a writer as long as the write side is held. -/
  isSome_writer : t.aggregator.writer.isSome ↔ 0 < t.aggregator.writeDepth
  writeDepth_eq : t.aggregator.writeDepth = holds.countP Hold.isWriting
  /-- A lane is a reader as long as it holds the read side, to the depth to which it holds it. -/
  reader_iff : ∀ lane depth,
    (∃ r ∈ t.aggregator.readers, r.owner.lane = lane ∧ r.depth = depth) ↔
      0 < depth ∧ holds.count (.side lane .read) = depth
  nodup_readers : (t.aggregator.readers.map (·.owner.lane)).Nodup
  /-- One lane at most holds the lock of a unit. -/
  eq_of_unit : ∀ id lane other, .unit lane id ∈ holds → .unit other id ∈ holds → other = lane
  holder_iff : ∀ id lane, (t.unitLock id).holder.map (·.lane) = some lane ↔ .unit lane id ∈ holds
  depth_eq : ∀ id, (t.unitLock id).depth = holds.countP (Hold.isOn id)

/-- The counter that goes down when a hold is given back. -/
def counter (t : LockTable) : Hold → Nat
  | .side _ .write => t.aggregator.writeDepth
  | .side lane .read => AggregatorLock.depthOf lane t.aggregator.readers
  | .unit _ id => (t.unitLock id).depth

/-- Nobody has any of the locks. -/
structure IsFree (t : LockTable) : Prop where
  writer : t.aggregator.writer = none
  writeDepth : t.aggregator.writeDepth = 0
  readers : t.aggregator.readers = []
  holder : ∀ id, (t.unitLock id).holder = none
  depth : ∀ id, (t.unitLock id).depth = 0

namespace Accords

variable {t : LockTable} {holds : List Hold} {queued : Nat}

/-- Locks that accord with a list of holds have counted exactly these holds. -/
theorem counts (h : t.Accords holds queued) : t.Counts holds where
  eq_of_write _ hwrite _ _ hother := h.eq_of_write hwrite hother
  isSome_writer := h.aggregator.isSome_writer
  writeDepth_eq := h.aggregator.writeDepth_eq.trans (Hold.countP_sides holds)
  reader_iff lane depth := by
    rw [AggregatorLock.depthOf_eq_iff h.aggregator.nodup h.aggregator.depth_pos,
      h.aggregator.depth_eq, Hold.count_sides]
  nodup_readers := h.aggregator.nodup
  eq_of_unit _ _ _ hlane hother := h.eq_of_unit hlane hother
  holder_iff _ _ := h.holder_iff
  depth_eq id := (h.unit id).depth_eq.trans (Hold.length_lanesOn id holds)

/-- The counter that goes with something that is held is positive, so giving it back never takes a
counter below zero. -/
theorem counter_pos (h : t.Accords holds queued) {hold : Hold} (hhold : hold ∈ holds) :
    0 < t.counter hold := by
  rcases hold with ⟨lane, _ | _⟩ | ⟨lane, id⟩
  · show 0 < AggregatorLock.depthOf lane t.aggregator.readers
    rw [h.aggregator.depth_eq, Hold.count_sides]
    exact List.count_pos_iff.2 hhold
  · show 0 < t.aggregator.writeDepth
    rw [h.counts.writeDepth_eq]
    exact List.countP_pos_iff.2 ⟨_, hhold, rfl⟩
  · show 0 < (t.unitLock id).depth
    rw [(h.unit id).depth_eq]
    exact List.length_pos_of_mem (Hold.mem_lanesOn_iff.2 hhold)

/-- When nothing is held, every lock is free. -/
theorem isFree (h : t.Accords [] queued) : t.IsFree := by
  obtain ⟨hwriter, hdepth, hreaders⟩ := h.aggregator.eq_free
  refine ⟨hwriter, hdepth, hreaders, fun id => ?_, fun id => (h.unit id).depth_eq⟩
  rw [← Option.not_isSome_iff_eq_none, (h.unit id).isSome_holder, (h.unit id).depth_eq]
  exact Nat.lt_irrefl 0

end Accords

end LockTable

/-- After any commands, in whatever order acquisitions are started, tried again and ended: the locks
count what is held, and what excludes each other is not held together; no counter is at zero when an
acquisition takes from it, be it by giving back a hold or by waiting no more; and when nothing is
held any more, all locks are free. -/
theorem LockSlots.locks_count_their_holds (commands : List SlotCommand) :
    (({} : LockSlots).after commands).table.Counts (({} : LockSlots).after commands).holds ∧
    (∀ slot ∈ (({} : LockSlots).after commands).slots,
      (∀ hold ∈ slot.2.holds, 0 < (({} : LockSlots).after commands).table.counter hold) ∧
      slot.2.weight ≤ (({} : LockSlots).after commands).table.aggregator.waitingWriters) ∧
    ((({} : LockSlots).after commands).holds = [] →
      (({} : LockSlots).after commands).table.IsFree) := by
  have hsound := LockSlots.sound_empty.after commands
  generalize ({} : LockSlots).after commands = s at hsound ⊢
  refine ⟨hsound.accords.counts, ?_, ?_⟩
  · intro slot hslot
    refine ⟨fun hold hhold => ?_, ?_⟩
    · exact hsound.accords.counter_pos (List.mem_flatMap.2 ⟨slot, hslot, hhold⟩)
    · rw [hsound.accords.aggregator.waitingWriters_eq]
      exact List.le_sum_of_mem (List.mem_map_of_mem hslot)
  · intro hnil
    have haccords := hsound.accords
    rw [hnil] at haccords
    exact haccords.isFree

end PhasedBuild
