import Mathlib.Data.List.Nodup
import PhasedBuild.Lock.Table

/-!
# What has been taken from the locks of a build

`Hold` is something that a lane has taken and not given back. The locks of a build accord with a
list of holds if every counter has the value that the list says, and if the holds stand together.

* `AggregatorLock.Accords`, `UnitLock.Accords`, `LockTable.Accords`: what the list says of one lock
  and of all of them.
* `acquireSide?`, `acquireUnit?`: what is taken is put on the list.
* `releaseSide`, `releaseUnit`: what is given back leaves the list, whatever has been taken since.
-/

namespace PhasedBuild

/-- Something that a lane has taken from the locks of a build and not given back. -/
inductive Hold where
  /-- A side of the aggregator lock. -/
  | side (lane : Nat) (access : Access)
  /-- The lock of a unit. -/
  | unit (lane : Nat) (id : String)
deriving Repr, Inhabited, DecidableEq

namespace Hold

/-- The lane that has it. -/
def lane : Hold → Nat
  | side lane _ => lane
  | unit lane _ => lane

/-- The side that is held, with the lane that holds it. -/
def side? : Hold → Option (Nat × Access)
  | side lane access => some (lane, access)
  | unit _ _ => none

/-- The lane that holds the lock of a unit. -/
def on? (id : String) : Hold → Option Nat
  | side _ _ => none
  | unit lane other => if other = id then some lane else none

/-- The sides of a list of holds. -/
def sides (holds : List Hold) : List (Nat × Access) :=
  holds.filterMap side?

/-- The lanes that hold the lock of a unit, each as often as it holds it. -/
def lanesOn (id : String) (holds : List Hold) : List Nat :=
  holds.filterMap (on? id)

@[simp] theorem sides_unit (lane : Nat) (id : String) (holds : List Hold) :
    sides (unit lane id :: holds) = sides holds := rfl

/-- Taking the lock of a unit puts the lane on that unit's list. -/
@[simp] theorem lanesOn_unit_self (id : String) (lane : Nat) (holds : List Hold) :
    lanesOn id (unit lane id :: holds) = lane :: lanesOn id holds := by
  simp [lanesOn, on?]

/-- Taking the lock of a unit leaves the lists of all other units alone. -/
theorem lanesOn_unit_of_ne {id other : String} (h : other ≠ id) (lane : Nat) (holds : List Hold) :
    lanesOn id (unit lane other :: holds) = lanesOn id holds := by
  simp [lanesOn, on?, h]

/-- A lane is listed with a side of the aggregator lock exactly if it holds that side. -/
theorem mem_sides_iff {lane : Nat} {access : Access} {holds : List Hold} :
    (lane, access) ∈ sides holds ↔ side lane access ∈ holds := by
  constructor
  · intro h
    obtain ⟨hold, hmem, heq⟩ := List.mem_filterMap.1 h
    cases hold with
    | side other otherAccess =>
      obtain ⟨rfl, rfl⟩ := Prod.mk.inj (Option.some.inj heq)
      exact hmem
    | unit _ _ => cases heq
  · intro h
    exact List.mem_filterMap.2 ⟨_, h, rfl⟩

/-- A lane is listed with a unit exactly if it holds the lock of that unit. -/
theorem mem_lanesOn_iff {lane : Nat} {id : String} {holds : List Hold} :
    lane ∈ lanesOn id holds ↔ unit lane id ∈ holds := by
  constructor
  · intro h
    obtain ⟨hold, hmem, heq⟩ := List.mem_filterMap.1 h
    cases hold with
    | side _ _ => cases heq
    | unit other otherId =>
      by_cases hid : otherId = id
      · rw [on?, if_pos hid] at heq
        obtain rfl := Option.some.inj heq
        exact hid ▸ hmem
      · rw [on?, if_neg hid] at heq
        cases heq
  · intro h
    exact List.mem_filterMap.2 ⟨_, h, by simp [on?]⟩

end Hold

/-! ### The lock of a unit -/

namespace UnitLock

/-- The lock of a unit has been taken by these lanes, once for each time that they are listed. -/
structure Accords (l : UnitLock) (lanes : List Nat) : Prop where
  depth_eq : l.depth = lanes.length
  isSome_holder : l.holder.isSome ↔ 0 < l.depth
  lane_eq : ∀ holder, l.holder = some holder → ∀ lane ∈ lanes, lane = holder.lane

variable {l l' : UnitLock} {lanes lanes' : List Nat}

/-- A lock that nobody has ever taken accords with the empty list. -/
theorem accords_free : Accords {} [] :=
  ⟨rfl, by simp, fun _ h => nomatch h⟩

/-- The order in which the lanes have taken the lock does not matter. -/
theorem Accords.of_perm (h : l.Accords lanes) (hperm : lanes.Perm lanes') : l.Accords lanes' where
  depth_eq := h.depth_eq.trans hperm.length_eq
  isSome_holder := h.isSome_holder
  lane_eq holder hholder lane hlane := h.lane_eq holder hholder lane (hperm.mem_iff.2 hlane)

/-- A lock without a holder has been taken by nobody. -/
theorem Accords.eq_nil (h : l.Accords lanes) (hholder : l.holder = none) : lanes = [] := by
  have hdepth : ¬ 0 < l.depth := by
    rw [← h.isSome_holder, hholder]
    simp
  rw [h.depth_eq] at hdepth
  exact List.length_eq_zero_iff.1 (Nat.eq_zero_of_not_pos hdepth)

/-- A lock that somebody has is held by the first of the lanes that have it. -/
theorem Accords.exists_holder {lane : Nat} (h : l.Accords (lane :: lanes)) :
    ∃ holder, l.holder = some holder ∧ holder.lane = lane := by
  have hpos : 0 < l.depth := by
    rw [h.depth_eq]
    exact Nat.succ_pos _
  obtain ⟨holder, hholder⟩ := Option.isSome_iff_exists.1 (h.isSome_holder.2 hpos)
  exact ⟨holder, hholder, (h.lane_eq holder hholder lane List.mem_cons_self).symm⟩

/-- The lane that gets the lock joins the list. Either the lock was free, or the lane enters it once
more. -/
theorem Accords.acquire? (h : l.Accords lanes) {owner : Owner}
    (hl : l.acquire? owner = some l') : l'.Accords (owner.lane :: lanes) := by
  unfold UnitLock.acquire? at hl
  split at hl
  next hholder =>
    obtain rfl := Option.some.inj hl
    obtain rfl := h.eq_nil hholder
    refine ⟨rfl, by simp, ?_⟩
    intro holder heq lane hlane
    obtain rfl := Option.some.inj heq
    exact List.mem_singleton.1 hlane
  next holder hholder =>
    split at hl
    next hlane =>
      obtain rfl := Option.some.inj hl
      refine ⟨?_, by simp [hholder], ?_⟩
      · simp [h.depth_eq]
      · intro other hother lane hmem
        obtain rfl : holder = other := Option.some.inj (hholder.symm.trans hother)
        rcases List.mem_cons.1 hmem with rfl | hmem
        · exact hlane.symm
        · exact h.lane_eq holder hholder lane hmem
    next => cases hl

/-- The lane that gives the lock back leaves the list once. The lock has no holder any more exactly
when the list has become empty. -/
theorem Accords.release {lane : Nat} (h : l.Accords (lane :: lanes)) : l.release.Accords lanes := by
  have hdepth : l.depth = lanes.length + 1 := h.depth_eq
  unfold UnitLock.release
  split
  next hle =>
    have hnil : lanes = [] := List.length_eq_zero_iff.1 (by omega)
    exact hnil ▸ ⟨rfl, by simp, fun _ hholder => nomatch hholder⟩
  next hle =>
    obtain ⟨holder, hholder, -⟩ := h.exists_holder
    refine ⟨by simp [hdepth], ?_, ?_⟩
    · simp only [hholder, Option.isSome_some, true_iff]
      omega
    · intro other hother other' hmem
      exact h.lane_eq other hother other' (List.mem_cons_of_mem _ hmem)

end UnitLock

/-! ### The readers of the aggregator lock -/

namespace AggregatorLock

/-- How often a lane has taken the read side and not given it back. -/
def depthOf (lane : Nat) : List Reader → Nat
  | [] => 0
  | r :: rest => if r.owner.lane = lane then r.depth else depthOf lane rest

/-- The lanes of readers. -/
def lanesOf (readers : List Reader) : List Nat :=
  readers.map (·.owner.lane)

@[simp] theorem lanesOf_nil : lanesOf [] = [] := rfl

@[simp] theorem lanesOf_cons (r : Reader) (readers : List Reader) :
    lanesOf (r :: readers) = r.owner.lane :: lanesOf readers := rfl

/-- A lane is a reader exactly if it is the lane of one of the readers. -/
theorem isReader_iff_mem {l : AggregatorLock} {lane : Nat} :
    l.isReader lane = true ↔ lane ∈ lanesOf l.readers := by
  simp [isReader, lanesOf]

/-- A lane that is no reader has depth zero. -/
theorem depthOf_of_notMem {lane : Nat} {readers : List Reader} (h : lane ∉ lanesOf readers) :
    depthOf lane readers = 0 := by
  induction readers with
  | nil => rfl
  | cons r rest ih =>
    rw [lanesOf_cons, List.mem_cons, not_or] at h
    rw [depthOf, if_neg (Ne.symm h.1), ih h.2]

/-- A lane that is a reader has a positive depth. -/
theorem depthOf_pos {lane : Nat} {readers : List Reader} (hpos : ∀ r ∈ readers, 0 < r.depth)
    (h : lane ∈ lanesOf readers) : 0 < depthOf lane readers := by
  induction readers with
  | nil => cases h
  | cons r rest ih =>
    unfold depthOf
    split
    next => exact hpos r List.mem_cons_self
    next hne =>
      rcases List.mem_cons.1 h with rfl | h
      · exact absurd rfl hne
      · exact ih (fun r hr => hpos r (List.mem_cons_of_mem _ hr)) h

/-- The depth of a lane is that of its reader. -/
theorem depthOf_eq_iff {lane : Nat} {readers : List Reader} (hnodup : (lanesOf readers).Nodup)
    (hpos : ∀ r ∈ readers, 0 < r.depth) {n : Nat} :
    (∃ r ∈ readers, r.owner.lane = lane ∧ r.depth = n) ↔ 0 < n ∧ depthOf lane readers = n := by
  induction readers with
  | nil =>
    constructor
    · rintro ⟨r, hr, -⟩
      cases hr
    · rintro ⟨hn, rfl⟩
      exact absurd hn (Nat.lt_irrefl 0)
  | cons r rest ih =>
    rw [lanesOf_cons, List.nodup_cons] at hnodup
    have hrest := ih hnodup.2 fun r hr => hpos r (List.mem_cons_of_mem _ hr)
    unfold depthOf
    split
    next hlane =>
      constructor
      · rintro ⟨other, hmem, hother, rfl⟩
        rcases List.mem_cons.1 hmem with rfl | hmem
        · exact ⟨hpos _ List.mem_cons_self, rfl⟩
        · refine absurd ?_ hnodup.1
          rw [hlane, ← hother]
          exact List.mem_map_of_mem hmem
      · rintro ⟨-, rfl⟩
        exact ⟨r, List.mem_cons_self, hlane, rfl⟩
    next hlane =>
      rw [← hrest]
      constructor
      · rintro ⟨other, hmem, hother, hdepth⟩
        rcases List.mem_cons.1 hmem with rfl | hmem
        · exact absurd hother hlane
        · exact ⟨other, hmem, hother, hdepth⟩
      · rintro ⟨other, hmem, hother⟩
        exact ⟨other, List.mem_cons_of_mem _ hmem, hother⟩

/-- Adding a reader makes its own lane deeper by one and no other lane. -/
theorem depthOf_addReader (owner : Owner) (readers : List Reader) (lane : Nat) :
    depthOf lane (addReader owner readers) =
      depthOf lane readers + if owner.lane = lane then 1 else 0 := by
  induction readers with
  | nil => by_cases h : owner.lane = lane <;> simp [addReader, depthOf, h]
  | cons r rest ih =>
    unfold addReader
    split
    next hr =>
      unfold depthOf
      by_cases h : owner.lane = lane
      · simp [hr, h]
      · simp [hr, h]
    next hr =>
      unfold depthOf
      rw [ih]
      split
      next h =>
        have hne : owner.lane ≠ lane := fun heq => hr (h.trans heq.symm)
        simp [hne]
      next => rfl

/-- A lane that reads already enters once more; any other lane joins the readers at their end. -/
theorem lanesOf_addReader (owner : Owner) (readers : List Reader) :
    lanesOf (addReader owner readers) =
      if owner.lane ∈ lanesOf readers then lanesOf readers
      else lanesOf readers ++ [owner.lane] := by
  induction readers with
  | nil => simp [addReader]
  | cons r rest ih =>
    unfold addReader
    split
    next hr => simp [hr]
    next hr =>
      rw [lanesOf_cons, ih, lanesOf_cons]
      by_cases h : owner.lane ∈ lanesOf rest
      · simp [h]
      · simp [h, Ne.symm hr]

/-- The readers after one has been added are those before, and the new one. -/
theorem mem_lanesOf_addReader {owner : Owner} {readers : List Reader} {lane : Nat} :
    lane ∈ lanesOf (addReader owner readers) ↔ lane ∈ lanesOf readers ∨ lane = owner.lane := by
  rw [lanesOf_addReader]
  split
  next hmem =>
    constructor
    · exact .inl
    · rintro (hlane | rfl)
      · exact hlane
      · exact hmem
  next => simp

/-- A lane does not become a reader twice. -/
theorem nodup_lanesOf_addReader {readers : List Reader} (h : (lanesOf readers).Nodup)
    (owner : Owner) : (lanesOf (addReader owner readers)).Nodup := by
  rw [lanesOf_addReader]
  split
  next => exact h
  next hnot => exact List.nodup_append.2 ⟨h, List.nodup_singleton _, by
    intro lane hlane other hother heq
    obtain rfl := List.mem_singleton.1 hother
    exact hnot (heq ▸ hlane)⟩

/-- Every reader still has a positive depth when one has been added. -/
theorem depth_pos_addReader {readers : List Reader} (h : ∀ r ∈ readers, 0 < r.depth)
    (owner : Owner) : ∀ r ∈ addReader owner readers, 0 < r.depth := by
  induction readers with
  | nil =>
    intro r hr
    obtain rfl := List.mem_singleton.1 hr
    exact Nat.one_pos
  | cons r rest ih =>
    have hrest := ih fun r hr => h r (List.mem_cons_of_mem _ hr)
    unfold addReader
    split
    next =>
      intro other hother
      rcases List.mem_cons.1 hother with rfl | hother
      · exact Nat.succ_pos _
      · exact h other (List.mem_cons_of_mem _ hother)
    next =>
      intro other hother
      rcases List.mem_cons.1 hother with rfl | hother
      · exact h _ List.mem_cons_self
      · exact hrest other hother

/-- Dropping a reader makes its own lane less deep by one and no other lane. No lane may be listed
twice: a reader of depth one is taken off the list, and a second one of its lane would be left. -/
theorem depthOf_dropReader {readers : List Reader} (hnodup : (lanesOf readers).Nodup)
    (dropped lane : Nat) :
    depthOf lane (dropReader dropped readers) =
      depthOf lane readers - if dropped = lane then 1 else 0 := by
  induction readers with
  | nil => by_cases h : dropped = lane <;> simp [dropReader, depthOf, h]
  | cons r rest ih =>
    rw [lanesOf_cons, List.nodup_cons] at hnodup
    have hrest := ih hnodup.2
    unfold dropReader
    split
    next hr =>
      split
      next hle =>
        by_cases h : dropped = lane
        · -- the reader leaves, and no other one is of its lane
          rw [depthOf_of_notMem (by rw [← h, ← hr]; exact hnodup.1), depthOf,
            if_pos (hr.trans h), if_pos h]
          omega
        · rw [depthOf, if_neg (fun heq => h (hr.symm.trans heq)), if_neg h]
          rfl
      next hle =>
        by_cases h : dropped = lane
        · simp [depthOf, hr, h]
        · simp [depthOf, hr, h]
    next hr =>
      unfold depthOf
      rw [hrest]
      split
      next h =>
        have hne : dropped ≠ lane := fun heq => hr (h.trans heq.symm)
        simp [hne]
      next => rfl

/-- Dropping a reader takes at most its own lane off the list. -/
theorem lanesOf_dropReader_sublist (lane : Nat) (readers : List Reader) :
    (lanesOf (dropReader lane readers)).Sublist (lanesOf readers) := by
  induction readers with
  | nil => exact .slnil
  | cons r rest ih =>
    unfold dropReader
    split
    next =>
      split
      next => exact List.sublist_cons_self _ _
      next => exact List.Sublist.refl _
    next => exact ih.cons_cons _

/-- Every reader still has a positive depth when one has been dropped, for one that would come to
zero leaves. -/
theorem depth_pos_dropReader {readers : List Reader} (h : ∀ r ∈ readers, 0 < r.depth)
    (lane : Nat) : ∀ r ∈ dropReader lane readers, 0 < r.depth := by
  induction readers with
  | nil =>
    intro r hr
    cases hr
  | cons r rest ih =>
    have hrest := fun r hr => h r (List.mem_cons_of_mem _ hr)
    unfold dropReader
    split
    next =>
      split
      next => exact hrest
      next hle =>
        intro other hother
        rcases List.mem_cons.1 hother with rfl | hother
        · exact Nat.sub_pos_of_lt (Nat.lt_of_not_le hle)
        · exact hrest other hother
    next =>
      intro other hother
      rcases List.mem_cons.1 hother with rfl | hother
      · exact h _ List.mem_cons_self
      · exact ih hrest other hother

end AggregatorLock

/-! ### The aggregator lock -/

/-- How much an acquisition of a side counts while it waits. -/
def Access.weight : Access → Nat
  | read => 0
  | write => 1

namespace AggregatorLock

/-- The sides of the lock have been taken by these lanes, once for each time that they are listed,
and so many acquisitions wait for the write side. -/
structure Accords (l : AggregatorLock) (sides : List (Nat × Access)) (queued : Nat) : Prop where
  isSome_writer : l.writer.isSome ↔ 0 < l.writeDepth
  writeDepth_eq : l.writeDepth = sides.countP (·.2 = .write)
  /-- Who has the write side has it against all other lanes. -/
  lane_eq : ∀ writer, l.writer = some writer → ∀ side ∈ sides, side.1 = writer.lane
  nodup : (lanesOf l.readers).Nodup
  depth_pos : ∀ r ∈ l.readers, 0 < r.depth
  depth_eq : ∀ lane, depthOf lane l.readers = sides.count (lane, .read)
  waitingWriters_eq : l.waitingWriters = queued

variable {l l' : AggregatorLock} {sides sides' : List (Nat × Access)} {queued : Nat}

/-- An aggregator lock that nobody has ever taken accords with the empty list, and nobody waits for
it. -/
theorem accords_free : Accords {} [] 0 where
  isSome_writer := by simp
  writeDepth_eq := rfl
  lane_eq _ h := nomatch h
  nodup := List.nodup_nil
  depth_pos _ h := nomatch h
  depth_eq _ := rfl
  waitingWriters_eq := rfl

namespace Accords

/-- The order in which the sides have been taken does not matter. -/
theorem of_perm (h : l.Accords sides queued) (hperm : sides.Perm sides') :
    l.Accords sides' queued where
  isSome_writer := h.isSome_writer
  writeDepth_eq := h.writeDepth_eq.trans (hperm.countP_eq _)
  lane_eq writer hwriter side hside := h.lane_eq writer hwriter side (hperm.mem_iff.2 hside)
  nodup := h.nodup
  depth_pos := h.depth_pos
  depth_eq lane := (h.depth_eq lane).trans (hperm.count_eq _)
  waitingWriters_eq := h.waitingWriters_eq

/-- The lanes of the readers are those that hold the read side. -/
theorem mem_lanesOf_iff (h : l.Accords sides queued) {lane : Nat} :
    lane ∈ lanesOf l.readers ↔ (lane, .read) ∈ sides := by
  constructor
  · intro hlane
    have hpos := depthOf_pos h.depth_pos hlane
    rw [h.depth_eq] at hpos
    exact List.count_pos_iff.1 hpos
  · intro hside
    by_contra hnot
    have hzero := depthOf_of_notMem hnot
    rw [h.depth_eq] at hzero
    exact absurd (List.count_pos_iff.2 hside) (by omega)

/-- A lane is a reader exactly if it holds the read side. -/
theorem isReader_iff (h : l.Accords sides queued) {lane : Nat} :
    l.isReader lane = true ↔ (lane, .read) ∈ sides :=
  isReader_iff_mem.trans h.mem_lanesOf_iff

/-- A lane that holds the write side is the writer. -/
theorem exists_writer (h : l.Accords sides queued) {lane : Nat} (hside : (lane, .write) ∈ sides) :
    ∃ writer, l.writer = some writer ∧ writer.lane = lane := by
  have hpos : 0 < l.writeDepth := by
    rw [h.writeDepth_eq]
    exact List.countP_pos_iff.2 ⟨_, hside, by simp⟩
  obtain ⟨writer, hwriter⟩ := Option.isSome_iff_exists.1 (h.isSome_writer.2 hpos)
  exact ⟨writer, hwriter, (h.lane_eq writer hwriter _ hside).symm⟩

/-- Nobody has a side of a lock without holds. -/
theorem eq_free (h : l.Accords [] queued) :
    l.writer = none ∧ l.writeDepth = 0 ∧ l.readers = [] := by
  have hdepth : l.writeDepth = 0 := h.writeDepth_eq
  have hwriter : l.writer = none := by
    rw [← Option.not_isSome_iff_eq_none, h.isSome_writer]
    omega
  refine ⟨hwriter, hdepth, List.eq_nil_iff_forall_not_mem.2 fun r hr => ?_⟩
  have hlane : r.owner.lane ∈ lanesOf l.readers := List.mem_map_of_mem hr
  exact absurd (h.mem_lanesOf_iff.1 hlane) List.not_mem_nil

/-- A lane takes the write side for the first time if nobody else has any side. -/
theorem becomes_writer (h : l.Accords sides queued) {owner : Owner} (hwriter : l.writer = none)
    (hreaders : l.readers.any (·.owner.lane != owner.lane) = false) :
    ({ l with writer := some owner, writeDepth := 1 } : AggregatorLock).Accords
      ((owner.lane, .write) :: sides) queued := by
  have hnone : sides.countP (·.2 = .write) = 0 := by
    have hdepth : ¬ 0 < l.writeDepth := by
      rw [← h.isSome_writer, hwriter]
      simp
    rw [← h.writeDepth_eq]
    omega
  refine ⟨by simp, by simp [hnone], ?_, h.nodup, h.depth_pos, ?_, h.waitingWriters_eq⟩
  · intro writer heq side hside
    obtain rfl := Option.some.inj heq
    rcases List.mem_cons.1 hside with rfl | hside
    · rfl
    obtain ⟨lane, access⟩ := side
    cases access with
    | write =>
      have hpos : 0 < sides.countP (·.2 = .write) := List.countP_pos_iff.2 ⟨_, hside, by simp⟩
      exact absurd hnone (Nat.ne_of_gt hpos)
    | read =>
      obtain ⟨r, hr, rfl⟩ := List.mem_map.1 (h.mem_lanesOf_iff.2 hside)
      have hlane := List.any_eq_false.1 hreaders r hr
      simpa using hlane
  · intro lane
    rw [List.count_cons_of_ne (by simp), h.depth_eq]

/-- The lane that gets a side joins the list with it. It writes once more or becomes the writer
where nobody else is inside, and beside a writer it reads only if the writer is its own lane. -/
theorem acquire? (h : l.Accords sides queued) {owner : Owner} {access : Access}
    (hl : l.acquire? owner access = some l') :
    l'.Accords ((owner.lane, access) :: sides) queued := by
  cases access with
  | write =>
    unfold AggregatorLock.acquire? at hl
    simp only at hl
    split at hl
    next writer hwriter =>
      split at hl
      next hlane =>
        obtain rfl := Option.some.inj hl
        refine ⟨by simp [hwriter], by simp [h.writeDepth_eq], ?_, h.nodup, h.depth_pos, ?_,
          h.waitingWriters_eq⟩
        · intro other hother side hside
          obtain rfl : writer = other := Option.some.inj (hwriter.symm.trans hother)
          rcases List.mem_cons.1 hside with rfl | hside
          · exact hlane.symm
          · exact h.lane_eq writer hwriter side hside
        · intro lane
          rw [List.count_cons_of_ne (by simp), h.depth_eq]
      next => cases hl
    next hwriter =>
      split at hl
      next => cases hl
      next hreaders =>
        obtain rfl := Option.some.inj hl
        exact h.becomes_writer hwriter (by simpa using hreaders)
  | read =>
    unfold AggregatorLock.acquire? at hl
    simp only at hl
    split at hl
    next => cases hl
    next hopen =>
      obtain rfl := Option.some.inj hl
      refine ⟨h.isSome_writer, ?_, ?_, nodup_lanesOf_addReader h.nodup owner,
        depth_pos_addReader h.depth_pos owner, ?_, h.waitingWriters_eq⟩
      · rw [List.countP_cons_of_neg (by simp)]
        exact h.writeDepth_eq
      · intro writer hwriter side hside
        rcases List.mem_cons.1 hside with rfl | hside
        · -- beside a writer only its own lane gets in
          have hinside : l.isReader owner.lane = true ∨ l.isWriter owner.lane = true := by
            have hsome : l.writer.isSome = true := by
              simp [show l.writer = some writer from hwriter]
            simp only [hsome, Bool.true_or, Bool.and_true, Bool.not_eq_true', Bool.not_eq_false,
              Bool.or_eq_true] at hopen
            exact hopen
          rcases hinside with hreader | hwriting
          · exact h.lane_eq writer hwriter _ (h.isReader_iff.1 hreader)
          · rw [isWriter, show l.writer = some writer from hwriter] at hwriting
            exact (by simpa using hwriting : writer.lane = owner.lane).symm
        · exact h.lane_eq writer hwriter side hside
      · intro lane
        rw [depthOf_addReader, h.depth_eq, List.count_cons]
        simp

/-- The lane that gives a side back leaves the list once. The lock has no writer any more exactly
when no write side is left on the list. -/
theorem giveBack {lane : Nat} {access : Access} (h : l.Accords ((lane, access) :: sides) queued) :
    (l.giveBack lane access).Accords sides queued := by
  cases access with
  | write =>
    have hdepth : l.writeDepth = sides.countP (·.2 = .write) + 1 := by
      rw [h.writeDepth_eq, List.countP_cons_of_pos (by simp)]
    have hcount : ∀ other, depthOf other l.readers = sides.count (other, .read) := by
      intro other
      rw [h.depth_eq, List.count_cons_of_ne (by simp)]
    unfold AggregatorLock.giveBack
    simp only
    split
    next hle =>
      refine ⟨by simp, ?_, fun _ heq => (nomatch heq), h.nodup, h.depth_pos, hcount,
        h.waitingWriters_eq⟩
      show 0 = _
      omega
    next hle =>
      obtain ⟨writer, hwriter, -⟩ := h.exists_writer List.mem_cons_self
      refine ⟨?_, ?_, ?_, h.nodup, h.depth_pos, hcount, h.waitingWriters_eq⟩
      · simp only [hwriter, Option.isSome_some, true_iff]
        omega
      · show l.writeDepth - 1 = _
        omega
      · intro other hother side hside
        exact h.lane_eq other hother side (List.mem_cons_of_mem _ hside)
  | read =>
    refine ⟨h.isSome_writer, ?_, ?_, (lanesOf_dropReader_sublist _ _).nodup h.nodup,
      depth_pos_dropReader h.depth_pos lane, ?_, h.waitingWriters_eq⟩
    · exact h.writeDepth_eq.trans (List.countP_cons_of_neg (by simp))
    · intro writer hwriter side hside
      exact h.lane_eq writer hwriter side (List.mem_cons_of_mem _ hside)
    · intro other
      show depthOf other (dropReader lane l.readers) = _
      rw [depthOf_dropReader h.nodup, h.depth_eq, List.count_cons]
      by_cases heq : lane = other
      · simp [heq]
      · simp [heq]

/-- Calling those who wait does not change what has been taken. -/
theorem release {lane : Nat} {access : Access} (h : l.Accords ((lane, access) :: sides) queued) :
    (l.release lane access).Accords sides queued :=
  { h.giveBack with }

/-- Whoever joins those who wait counts as waiting if it wants the write side. -/
theorem enqueue (h : l.Accords sides queued) (access : Access) :
    (l.enqueue access).Accords sides (queued + access.weight) := by
  cases access with
  | read => exact h
  | write => exact { h with waitingWriters_eq := congrArg (· + 1) h.waitingWriters_eq }

/-- Whoever leaves those who wait does not count any more. -/
theorem dequeue {access : Access} (h : l.Accords sides (queued + access.weight)) :
    (l.dequeue access).Accords sides queued := by
  cases access with
  | read => exact h
  | write => exact { h with waitingWriters_eq := congrArg (· - 1) h.waitingWriters_eq }

end Accords

end AggregatorLock

/-! ### All locks of a build -/

namespace LockTable

/-- The lock that is set is the lock of that unit afterwards. -/
@[simp] theorem unitLock_setUnitLock_self (t : LockTable) (id : String) (l : UnitLock) :
    (t.setUnitLock id l).unitLock id = l := by
  simp [unitLock, setUnitLock]

/-- Setting the lock of a unit leaves those of all other units alone. -/
theorem unitLock_setUnitLock_of_ne {id other : String} (h : other ≠ id) (t : LockTable)
    (l : UnitLock) : (t.setUnitLock id l).unitLock other = t.unitLock other := by
  simp [unitLock, setUnitLock, Keyed.find?_insert_of_ne h]

/-- What has been taken from the locks of a build and not been given back is on the list, and so
many acquisitions wait for the write side of the aggregator lock. -/
structure Accords (t : LockTable) (holds : List Hold) (queued : Nat) : Prop where
  aggregator : t.aggregator.Accords (Hold.sides holds) queued
  unit : ∀ id, (t.unitLock id).Accords (Hold.lanesOn id holds)

variable {t t' : LockTable} {holds holds' : List Hold} {queued : Nat} {owner : Owner}
  {access : Access}

/-- Locks that nobody has ever taken accord with the empty list. -/
theorem accords_free : Accords {} [] 0 :=
  ⟨AggregatorLock.accords_free, fun _ => UnitLock.accords_free⟩

namespace Accords

/-- The order in which the locks have been taken does not matter. -/
theorem of_perm (h : t.Accords holds queued) (hperm : holds.Perm holds') :
    t.Accords holds' queued :=
  ⟨h.aggregator.of_perm (hperm.filterMap _), fun id => (h.unit id).of_perm (hperm.filterMap _)⟩

/-- A side that is got is put on the list. -/
theorem acquireSide? (h : t.Accords holds queued) (ht : t.acquireSide? owner access = some t') :
    t'.Accords (.side owner.lane access :: holds) queued := by
  obtain ⟨l, hl, rfl⟩ := Option.map_eq_some_iff.1 ht
  exact ⟨h.aggregator.acquire? hl, h.unit⟩

/-- A side that is given back leaves the list. -/
theorem releaseSide (h : t.Accords (.side owner.lane access :: holds) queued) :
    (t.releaseSide owner access).Accords holds queued :=
  ⟨h.aggregator.release, h.unit⟩

/-- Joining the queue of the aggregator lock leaves the locks of the units alone. -/
theorem enqueue (h : t.Accords holds queued) (access : Access) :
    ({ t with aggregator := t.aggregator.enqueue access } : LockTable).Accords holds
      (queued + access.weight) :=
  ⟨h.aggregator.enqueue access, h.unit⟩

/-- Leaving the queue of the aggregator lock leaves the locks of the units alone. -/
theorem dequeue (h : t.Accords holds (queued + access.weight)) :
    ({ t with aggregator := t.aggregator.dequeue access } : LockTable).Accords holds queued :=
  ⟨h.aggregator.dequeue, h.unit⟩

/-- The lock of one unit is exchanged, and what is held of it with it. -/
theorem setUnitLock (h : t.Accords holds queued) {id : String} {l : UnitLock}
    (hsides : Hold.sides holds' = Hold.sides holds)
    (hothers : ∀ other, other ≠ id → Hold.lanesOn other holds' = Hold.lanesOn other holds)
    (hl : l.Accords (Hold.lanesOn id holds')) : (t.setUnitLock id l).Accords holds' queued := by
  refine ⟨hsides ▸ h.aggregator, fun other => ?_⟩
  by_cases hother : other = id
  · subst hother
    rwa [unitLock_setUnitLock_self]
  · rw [unitLock_setUnitLock_of_ne hother, hothers other hother]
    exact h.unit other

/-- The lock of a unit that is got is put on the list, and no other lock changes. -/
theorem acquireUnit? (h : t.Accords holds queued) (ht : t.acquireUnit? owner = some t') :
    t'.Accords (.unit owner.lane owner.unit :: holds) queued := by
  obtain ⟨l, hl, rfl⟩ := Option.map_eq_some_iff.1 ht
  refine h.setUnitLock (Hold.sides_unit _ _ _)
    (fun other hother => Hold.lanesOn_unit_of_ne (Ne.symm hother) _ _) ?_
  rw [Hold.lanesOn_unit_self]
  exact (h.unit owner.unit).acquire? hl

/-- The lock of a unit that is given back leaves the list, and no other lock changes. -/
theorem releaseUnit {lane : Nat} {id : String} (h : t.Accords (.unit lane id :: holds) queued) :
    (t.releaseUnit id).Accords holds queued := by
  have hid := h.unit id
  rw [Hold.lanesOn_unit_self] at hid
  exact h.setUnitLock (Hold.sides_unit _ _ _).symm
    (fun other hother => (Hold.lanesOn_unit_of_ne (Ne.symm hother) _ _).symm) hid.release

/-- Who has the write side has it against all other lanes. -/
theorem eq_of_write (h : t.Accords holds queued) {lane other : Nat} {access : Access}
    (hwrite : .side lane .write ∈ holds) (hother : .side other access ∈ holds) : other = lane := by
  obtain ⟨writer, hwriter, rfl⟩ := h.aggregator.exists_writer (Hold.mem_sides_iff.2 hwrite)
  exact h.aggregator.lane_eq writer hwriter _ (Hold.mem_sides_iff.2 hother)

/-- The holder of the lock of a unit is the lane that is listed with it. -/
theorem holder_iff (h : t.Accords holds queued) {id : String} {lane : Nat} :
    (t.unitLock id).holder.map (·.lane) = some lane ↔ .unit lane id ∈ holds := by
  have hid := h.unit id
  rw [← Hold.mem_lanesOn_iff]
  constructor
  · intro hlane
    obtain ⟨holder, hholder, rfl⟩ := Option.map_eq_some_iff.1 hlane
    have hpos : 0 < (t.unitLock id).depth := hid.isSome_holder.1 (by simp [hholder])
    rw [hid.depth_eq] at hpos
    obtain ⟨other, hother⟩ := List.exists_mem_of_length_pos hpos
    exact hid.lane_eq holder hholder other hother ▸ hother
  · intro hmem
    have hpos : 0 < (t.unitLock id).depth := by
      rw [hid.depth_eq]
      exact List.length_pos_of_mem hmem
    obtain ⟨holder, hholder⟩ := Option.isSome_iff_exists.1 (hid.isSome_holder.2 hpos)
    rw [hholder, Option.map_some, hid.lane_eq holder hholder lane hmem]

/-- One lane at most holds the lock of a unit. -/
theorem eq_of_unit (h : t.Accords holds queued) {id : String} {lane other : Nat}
    (hlane : .unit lane id ∈ holds) (hother : .unit other id ∈ holds) : other = lane :=
  Option.some.inj ((h.holder_iff.2 hother).symm.trans (h.holder_iff.2 hlane))

end Accords

end LockTable

end PhasedBuild
