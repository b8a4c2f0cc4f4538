import Mathlib.Logic.Relation
import PhasedBuild.Proofs.Lock.Holds

/-!
# How a lane comes by the locks of a step

`LockTable.begin` and `LockTable.poll` go as far as they can at once. When lanes move side by side
others may come between: after a lane has asked in vain and before it joins those who wait, or after
it has looked how often they have been called and before it asks again. `LockTable.pursue` is one
such small step on the way to the locks of a step. Each of them looks at one lock once.

* `Stance` is where a lane stands with the locks of a step, and what it holds there.
* `LockTable.leads_begin`, `LockTable.leads_poll`: small steps between which nobody comes are
  what `begin` and `poll` do.
* `LockTable.Accords.pursue`: a small step keeps the account of what is held.
* `LockTable.Keeps`: whatever others do, a lane that asks in vain goes on asking in vain unless it
  is called.
-/

namespace PhasedBuild

open Relation

/-! ### Stances -/

/-- The two locks of a step, in the order in which they are taken. -/
inductive StepPart where
  /-- The side of the aggregator lock. -/
  | side
  /-- The lock of the unit. -/
  | unit
deriving Repr, Inhabited, DecidableEq

/-- How far a lane has come with a lock that it asks for. -/
inductive Quest where
  /-- It asks for the first time. -/
  | first
  /-- It has asked in vain and is about to join those who wait. -/
  | refused
  /-- It waits, and looks how often those who wait have been called. -/
  | joined
  /-- It asks again, having been called so often. -/
  | again (calls : Nat)
  /-- It has asked again in vain and has to be called once more. -/
  | waiting (calls : Nat)
  /-- It has the lock and is about to leave those who wait. -/
  | admitted
deriving Repr, Inhabited, DecidableEq

/-- Where a lane stands with the locks of a step. -/
inductive Stance where
  /-- It is at no step. -/
  | outside
  /-- It asks for one of the locks of a step. -/
  | asking (owner : Owner) (access : Access) (part : StepPart) (quest : Quest)
  /-- It has both locks. -/
  | inside (owner : Owner) (access : Access)
  /-- It has given back the lock of the unit, and not yet its side. -/
  | leaving (owner : Owner) (access : Access)
deriving Repr, Inhabited, DecidableEq

namespace StepPart

variable (owner : Owner) (access : Access)

/-- A lock of a step as a hold. -/
def hold : StepPart → Hold
  | side => .side owner.lane access
  | unit => .unit owner.lane owner.unit

/-- What a step has when it asks for a lock. -/
def before : StepPart → List Hold
  | side => []
  | unit => [.side owner.lane access]

/-- What a step does when it has got a lock. -/
def next : StepPart → Stance
  | side => .asking owner access .unit .first
  | unit => .inside owner access

/-- How much it counts to wait for a lock. -/
def weight : StepPart → Nat
  | side => access.weight
  | unit => 0

end StepPart

/-- Whether a lane has joined those who wait. -/
def Quest.isQueued : Quest → Bool
  | first => false
  | refused => false
  | joined => true
  | again _ => true
  | waiting _ => true
  | admitted => true

namespace Stance

/-- What a lane holds. -/
def holds : Stance → List Hold
  | outside => []
  | asking owner access part quest =>
    if quest = .admitted then part.hold owner access :: part.before owner access
    else part.before owner access
  | inside owner access => [.unit owner.lane owner.unit, .side owner.lane access]
  | leaving owner access => [.side owner.lane access]

/-- How much a lane counts as waiting for the write side. -/
def weight : Stance → Nat
  | outside => 0
  | asking _ access part quest => if quest.isQueued then part.weight access else 0
  | inside _ _ => 0
  | leaving _ _ => 0

/-- When a step has got a lock, it holds it besides what it held before. -/
theorem holds_next (owner : Owner) (access : Access) (part : StepPart) :
    (part.next owner access).holds = part.hold owner access :: part.before owner access := by
  cases part <;> rfl

/-- Who has got a lock does not count as waiting for the write side any more. -/
theorem weight_next (owner : Owner) (access : Access) (part : StepPart) :
    (part.next owner access).weight = 0 := by
  cases part <;> rfl

end Stance

/-! ### Small steps -/

namespace LockTable

variable (t : LockTable) (owner : Owner) (access : Access)

/-- Takes a lock of a step if that is possible now. -/
def take? : StepPart → Option LockTable
  | .side => t.acquireSide? owner access
  | .unit => t.acquireUnit? owner

/-- A lane joins those who wait for a lock. -/
def join : StepPart → LockTable
  | .side => { t with aggregator := t.aggregator.enqueue access }
  | .unit => t

/-- A lane leaves those who wait for a lock. -/
def leave : StepPart → LockTable
  | .side => { t with aggregator := t.aggregator.dequeue access }
  | .unit => t

/-- How often those who wait for a lock of a step have been called. -/
def callsOf : StepPart → Nat
  | .side => t.aggregator.calls
  | .unit => (t.unitLock owner.unit).calls

/-- One small step of a lane that asks for a lock. There is none while the lane waits and has not
been called. -/
def pursue (part : StepPart) : Quest → Option (LockTable × Stance)
  | .first =>
    match t.take? owner access part with
    | some t => some (t, part.next owner access)
    | none => some (t, .asking owner access part .refused)
  | .refused => some (t.join access part, .asking owner access part .joined)
  | .joined => some (t, .asking owner access part (.again (t.callsOf owner part)))
  | .again calls =>
    match t.take? owner access part with
    | some t => some (t, .asking owner access part .admitted)
    | none => some (t, .asking owner access part (.waiting calls))
  | .waiting calls =>
    if t.callsOf owner part = calls then none else some (t, .asking owner access part .joined)
  | .admitted => some (t.leave access part, part.next owner access)

variable (part : StepPart)

/-- What a small step of a lane can be. -/
inductive Pursuit : Quest → LockTable → Stance → Prop
  | take {t' : LockTable} : t.take? owner access part = some t' →
    Pursuit .first t' (part.next owner access)
  | refuse : t.take? owner access part = none →
    Pursuit .first t (.asking owner access part .refused)
  | join : Pursuit .refused (t.join access part) (.asking owner access part .joined)
  | look : Pursuit .joined t (.asking owner access part (.again (t.callsOf owner part)))
  | gain {t' : LockTable} {calls : Nat} : t.take? owner access part = some t' →
    Pursuit (.again calls) t' (.asking owner access part .admitted)
  | wait {calls : Nat} : t.take? owner access part = none →
    Pursuit (.again calls) t (.asking owner access part (.waiting calls))
  | wake {calls : Nat} : t.callsOf owner part ≠ calls →
    Pursuit (.waiting calls) t (.asking owner access part .joined)
  | leave : Pursuit .admitted (t.leave access part) (part.next owner access)

variable {t owner access part}

/-- Every small step is one of those that a pursuit can take. -/
theorem pursuit_of_eq_some {quest : Quest} {t' : LockTable} {stance : Stance}
    (h : t.pursue owner access part quest = some (t', stance)) :
    Pursuit t owner access part quest t' stance := by
  cases quest with
  | first =>
    rw [pursue] at h
    split at h
    next ht =>
      obtain ⟨rfl, rfl⟩ := Prod.mk.inj (Option.some.inj h)
      exact .take ht
    next ht =>
      obtain ⟨rfl, rfl⟩ := Prod.mk.inj (Option.some.inj h)
      exact .refuse ht
  | refused =>
    obtain ⟨rfl, rfl⟩ := Prod.mk.inj (Option.some.inj h)
    exact .join
  | joined =>
    obtain ⟨rfl, rfl⟩ := Prod.mk.inj (Option.some.inj h)
    exact .look
  | again calls =>
    rw [pursue] at h
    split at h
    next ht =>
      obtain ⟨rfl, rfl⟩ := Prod.mk.inj (Option.some.inj h)
      exact .gain ht
    next ht =>
      obtain ⟨rfl, rfl⟩ := Prod.mk.inj (Option.some.inj h)
      exact .wait ht
  | waiting calls =>
    rw [pursue] at h
    split at h
    next => cases h
    next hcalls =>
      obtain ⟨rfl, rfl⟩ := Prod.mk.inj (Option.some.inj h)
      exact .wake hcalls
  | admitted =>
    obtain ⟨rfl, rfl⟩ := Prod.mk.inj (Option.some.inj h)
    exact .leave

end LockTable

/-! ### Refusals -/

namespace AggregatorLock

variable {l : AggregatorLock} {owner : Owner}

/-- The write side is refused because of another writer, or because of another reader. -/
theorem acquire?_write_eq_none_iff : l.acquire? owner .write = none ↔
    (∃ writer, l.writer = some writer ∧ writer.lane ≠ owner.lane) ∨
      l.writer = none ∧ ∃ lane ∈ lanesOf l.readers, lane ≠ owner.lane := by
  unfold acquire?
  simp only
  cases l.writer with
  | some writer => simp
  | none => simp [lanesOf]

/-- The read side is refused to a lane without any side, because of a writer that is there or
waits. -/
theorem acquire?_read_eq_none_iff : l.acquire? owner .read = none ↔
    l.isReader owner.lane = false ∧ l.isWriter owner.lane = false ∧
      (l.writer.isSome = true ∨ 0 < l.waitingWriters) := by
  unfold acquire?
  simp only
  split
  next h => simpa [and_assoc] using h
  next h => simpa [and_assoc] using h

/-- What a lane that takes a side changes. -/
theorem acquire?_cases {l' : AggregatorLock} {access : Access}
    (h : l.acquire? owner access = some l') :
    l'.calls = l.calls ∧ l'.waitingWriters = l.waitingWriters ∧
      ((access = .write ∧ (∃ writer, l'.writer = some writer ∧ writer.lane = owner.lane) ∧
        l'.readers = l.readers) ∨
      (access = .read ∧ l'.writer = l.writer ∧ l'.readers = addReader owner l.readers)) := by
  cases access with
  | write =>
    unfold acquire? at h
    simp only at h
    split at h
    next writer hwriter =>
      split at h
      next hlane =>
        obtain rfl := Option.some.inj h
        exact ⟨rfl, rfl, .inl ⟨rfl, ⟨writer, hwriter, hlane⟩, rfl⟩⟩
      next => cases h
    next =>
      split at h
      next => cases h
      next =>
        obtain rfl := Option.some.inj h
        exact ⟨rfl, rfl, .inl ⟨rfl, ⟨owner, rfl, rfl⟩, rfl⟩⟩
  | read =>
    unfold acquire? at h
    simp only at h
    split at h
    next => cases h
    next =>
      obtain rfl := Option.some.inj h
      exact ⟨rfl, rfl, .inr ⟨rfl, rfl, rfl⟩⟩

/-- A lane to which a side is refused gets it no more when another lane has taken one. -/
theorem acquire?_eq_none_of_acquire? {l' : AggregatorLock} {other : Owner} {access taken : Access}
    (h : l.acquire? other taken = some l') (hother : other.lane ≠ owner.lane)
    (hnone : l.acquire? owner access = none) : l'.acquire? owner access = none := by
  obtain ⟨-, hwaiting, ⟨-, ⟨writer, hwriter, hlane⟩, hreaders⟩ | ⟨-, hwriter, hreaders⟩⟩ :=
    acquire?_cases h
  · have hne : writer.lane ≠ owner.lane := hlane ▸ hother
    cases access with
    | write => exact acquire?_write_eq_none_iff.2 (.inl ⟨writer, hwriter, hne⟩)
    | read =>
      obtain ⟨hreader, -, -⟩ := acquire?_read_eq_none_iff.1 hnone
      refine acquire?_read_eq_none_iff.2 ⟨?_, ?_, .inl (by simp [hwriter])⟩
      · rw [isReader, hreaders]
        exact hreader
      · simp [isWriter, hwriter, hne]
  · cases access with
    | write =>
      rw [acquire?_write_eq_none_iff] at hnone ⊢
      rw [hwriter, hreaders]
      refine hnone.imp_right ?_
      rintro ⟨hfree, lane, hlane, hne⟩
      exact ⟨hfree, lane, mem_lanesOf_addReader.2 (.inl hlane), hne⟩
    | read =>
      obtain ⟨hreader, hwriting, hcause⟩ := acquire?_read_eq_none_iff.1 hnone
      refine acquire?_read_eq_none_iff.2 ⟨?_, ?_, by rwa [hwriter, hwaiting]⟩
      · rw [← Bool.not_eq_true, isReader_iff_mem] at hreader ⊢
        rw [hreaders, mem_lanesOf_addReader, not_or]
        exact ⟨hreader, Ne.symm hother⟩
      · rw [isWriter, hwriter]
        exact hwriting

end AggregatorLock

namespace UnitLock

variable {l l' : UnitLock} {owner other : Owner}

/-- The lock of a unit is refused exactly while another lane holds it. -/
theorem acquire?_eq_none_iff : l.acquire? owner = none ↔
    ∃ holder, l.holder = some holder ∧ holder.lane ≠ owner.lane := by
  unfold acquire?
  cases l.holder with
  | none => simp
  | some holder => simp

/-- Who gets the lock of a unit is its holder, and nobody is called. -/
theorem acquire?_cases (h : l.acquire? owner = some l') :
    l'.calls = l.calls ∧ ∃ holder, l'.holder = some holder ∧ holder.lane = owner.lane := by
  unfold acquire? at h
  split at h
  next =>
    obtain rfl := Option.some.inj h
    exact ⟨rfl, owner, rfl, rfl⟩
  next holder hholder =>
    split at h
    next hlane =>
      obtain rfl := Option.some.inj h
      exact ⟨rfl, holder, hholder, hlane⟩
    next => cases h

/-- A lock that is given back is free and those who wait have been called, or its holder has it
still. -/
theorem release_cases (l : UnitLock) :
    l.release.calls = l.calls + 1 ∨ l.release.calls = l.calls ∧ l.release.holder = l.holder := by
  unfold release
  split
  next => exact .inl rfl
  next => exact .inr ⟨rfl, rfl⟩

end UnitLock

/-! ### Small steps and large ones -/

/-- The stance of an acquisition of the locks of a step. -/
def Acquisition.stance? : Acquisition → Option Stance
  | empty => none
  | held owner (.step access) => some (.inside owner access)
  | held _ _ => none
  | waiting owner (.step access) calls => some (.asking owner access .side (.waiting calls))
  | waiting _ _ _ => none
  | waitingInside owner access calls => some (.asking owner access .unit (.waiting calls))

namespace LockTable

/-- One small step on the way to the locks of a step. -/
def Pursues (a b : LockTable × Stance) : Prop :=
  ∃ owner access part quest, a.2 = .asking owner access part quest ∧
    a.1.pursue owner access part quest = some b

variable {t t' : LockTable} {owner : Owner} {access : Access} {part : StepPart}

/-- A step of a lane that asks for a lock is a small step on the way to the locks of a step. -/
theorem pursues_of_eq {quest : Quest} {b : LockTable × Stance}
    (h : t.pursue owner access part quest = some b) :
    Pursues (t, .asking owner access part quest) b :=
  ⟨owner, access, part, quest, rfl, h⟩

/-- A step cannot take its side exactly if the aggregator lock refuses it. -/
theorem take?_side_eq_none_iff :
    t.take? owner access .side = none ↔ t.aggregator.acquire? owner access = none :=
  Option.map_eq_none_iff

/-- A step cannot take the lock of its unit exactly if that lock refuses it. -/
theorem take?_unit_eq_none_iff :
    t.take? owner access .unit = none ↔ (t.unitLock owner.unit).acquire? owner = none :=
  Option.map_eq_none_iff

/-- It makes no difference to a lane that it has joined those who wait. -/
theorem take?_join (h : t.take? owner access part = none) :
    (t.join access part).take? owner access part = none := by
  cases part with
  | unit => exact h
  | side =>
    cases access with
    | read => exact h
    | write =>
      rw [take?_side_eq_none_iff, AggregatorLock.acquire?_write_eq_none_iff] at h ⊢
      exact h

/-- Joining those who wait calls nobody. -/
theorem callsOf_join : (t.join access part).callsOf owner part = t.callsOf owner part := by
  cases part with
  | unit => rfl
  | side => cases access <;> rfl

/-- A lane that asks at once gets the lock. -/
theorem pursues_of_take? (h : t.take? owner access part = some t') :
    Pursues (t, .asking owner access part .first) (t', part.next owner access) :=
  pursues_of_eq (by rw [pursue, h])

/-- A lane that asks in vain comes to wait. -/
theorem pursues_waiting (h : t.take? owner access part = none) :
    ReflTransGen Pursues (t, .asking owner access part .first)
      (t.join access part, .asking owner access part (.waiting (t.callsOf owner part))) := by
  have hrefused : Pursues (t, .asking owner access part .first)
      (t, .asking owner access part .refused) := pursues_of_eq (by rw [pursue, h])
  have hjoined : Pursues (t, .asking owner access part .refused)
      (t.join access part, .asking owner access part .joined) := pursues_of_eq rfl
  have hagain : Pursues (t.join access part, .asking owner access part .joined)
      (t.join access part, .asking owner access part (.again (t.callsOf owner part))) :=
    pursues_of_eq (by rw [pursue, callsOf_join])
  have hwaiting : Pursues
      (t.join access part, .asking owner access part (.again (t.callsOf owner part)))
      (t.join access part, .asking owner access part (.waiting (t.callsOf owner part))) :=
    pursues_of_eq (by rw [pursue, take?_join h])
  exact .head hrefused (.head hjoined (.head hagain (.single hwaiting)))

/-- A lane that has been called asks again. -/
theorem pursues_again (access : Access) {calls : Nat} (hcalls : t.callsOf owner part ≠ calls) :
    ReflTransGen Pursues (t, .asking owner access part (.waiting calls))
      (t, .asking owner access part (.again (t.callsOf owner part))) := by
  have hjoined : Pursues (t, .asking owner access part (.waiting calls))
      (t, .asking owner access part .joined) :=
    pursues_of_eq (by rw [pursue, if_neg hcalls])
  exact .head hjoined (.single (pursues_of_eq rfl))

/-- A lane that asks again gets the lock and leaves those who wait, or waits as before. -/
theorem pursues_retry {calls : Nat} :
    (∀ t', t.take? owner access part = some t' →
      ReflTransGen Pursues (t, .asking owner access part (.again calls))
        (t'.leave access part, part.next owner access)) ∧
    (t.take? owner access part = none →
      ReflTransGen Pursues (t, .asking owner access part (.again calls))
        (t, .asking owner access part (.waiting calls))) := by
  constructor
  · intro t' h
    have hadmitted : Pursues (t, .asking owner access part (.again calls))
        (t', .asking owner access part .admitted) := pursues_of_eq (by rw [pursue, h])
    exact .head hadmitted (.single (pursues_of_eq rfl))
  · intro h
    exact .single (pursues_of_eq (by rw [pursue, h]))

/-- Small steps lead from a stance to what an acquisition has come to. -/
def Leads (t : LockTable) (stance : Stance) (outcome : LockTable × Acquisition × List String) :
    Prop :=
  ∃ stance', outcome.2.1.stance? = some stance' ∧
    ReflTransGen Pursues (t, stance) (outcome.1, stance')

/-- Small steps lead from asking for the lock of a unit for the first time to the unit being
entered, or to waiting for it. -/
theorem leads_enterUnit (t : LockTable) (owner : Owner) (access : Access) :
    t.Leads (.asking owner access .unit .first) (t.enterUnit owner access) := by
  unfold enterUnit
  simp only
  split
  next t' ht => exact ⟨_, rfl, .single (pursues_of_take? ht)⟩
  next ht => exact ⟨_, rfl, pursues_waiting ht⟩

/-- To begin with the locks of a step is to go on in small steps until the lane has both of them or
has to wait. -/
theorem leads_begin (t : LockTable) (owner : Owner) (access : Access) :
    t.Leads (.asking owner access .side .first) (t.begin owner (.step access)) := by
  unfold begin beginSide
  simp only
  split
  next t' ht =>
    obtain ⟨stance, hstance, hsteps⟩ := t'.leads_enterUnit owner access
    exact ⟨stance, hstance, .head (pursues_of_take? ht) hsteps⟩
  next ht => exact ⟨_, rfl, pursues_waiting ht⟩

/-- So it is with an acquisition that is tried again. -/
theorem leads_poll (t : LockTable) {a : Acquisition} {stance : Stance}
    (ha : a.stance? = some stance) : t.Leads stance (t.poll a) := by
  have hkept : t.Leads stance (t, a, []) := ⟨stance, ha, .refl⟩
  cases a with
  | empty => cases ha
  | held _ _ => exact hkept
  | waiting owner request calls =>
    cases request with
    | unit => cases ha
    | aggregator _ => cases ha
    | step access =>
      obtain rfl := Option.some.inj ha
      rw [poll]
      split
      next => exact hkept
      next hcalls =>
        have hagain : ReflTransGen Pursues (t, .asking owner access .side (.waiting calls))
            (t, .asking owner access .side (.again t.aggregator.calls)) :=
          pursues_again access hcalls
        unfold retrySide
        split
        next t' ht =>
          obtain ⟨stance, hstance, hsteps⟩ := (t'.leave access .side).leads_enterUnit owner access
          exact ⟨stance, hstance, (hagain.trans (pursues_retry.1 t' ht)).trans hsteps⟩
        next ht => exact ⟨_, rfl, hagain.trans (pursues_retry.2 ht)⟩
  | waitingInside owner access calls =>
    obtain rfl := Option.some.inj ha
    rw [poll]
    split
    next => exact hkept
    next hcalls =>
      have hagain : ReflTransGen Pursues (t, .asking owner access .unit (.waiting calls))
          (t, .asking owner access .unit (.again (t.unitLock owner.unit).calls)) :=
        pursues_again access hcalls
      unfold retryUnit
      split
      next t' ht => exact ⟨_, rfl, hagain.trans (pursues_retry.1 t' ht)⟩
      next ht => exact ⟨_, rfl, hagain.trans (pursues_retry.2 ht)⟩

/-! ### What is held on the way -/

section accords

variable {holds : List Hold} {queued : Nat}

/-- A lock of a step that is taken is put on the list. -/
theorem Accords.take? (h : t.Accords holds queued) (ht : t.take? owner access part = some t') :
    t'.Accords (part.hold owner access :: holds) queued := by
  cases part with
  | side => exact h.acquireSide? ht
  | unit => exact h.acquireUnit? ht

/-- A step that joins those who wait counts if it wants the write side. -/
theorem Accords.join (h : t.Accords holds queued) (access : Access) (part : StepPart) :
    (t.join access part).Accords holds (queued + part.weight access) := by
  cases part with
  | side => exact h.enqueue access
  | unit => exact h

/-- A step that leaves those who wait does not count any more. -/
theorem Accords.leave (h : t.Accords holds (queued + part.weight access)) :
    (t.leave access part).Accords holds queued := by
  cases part with
  | side => exact h.dequeue
  | unit => exact h

/-- A small step keeps the account of what a lane holds beside others. -/
theorem Accords.pursue {quest : Quest} {stance : Stance}
    (h : t.Accords ((Stance.asking owner access part quest).holds ++ holds)
      (queued + (Stance.asking owner access part quest).weight))
    (hstep : t.pursue owner access part quest = some (t', stance)) :
    t'.Accords (stance.holds ++ holds) (queued + stance.weight) := by
  cases pursuit_of_eq_some hstep with
  | take ht =>
    rw [Stance.holds_next, Stance.weight_next]
    exact h.take? ht
  | refuse _ => exact h
  | join => exact Accords.join h access part
  | look => exact h
  | gain ht => exact h.take? ht
  | wait _ => exact h
  | wake _ => exact h
  | leave =>
    rw [Stance.holds_next, Stance.weight_next]
    exact Accords.leave h

end accords

/-! ### What others do meanwhile -/

/-- What others do to a lock that a lane asks for: those who wait for it may be called, and a lane
that asks for it in vain goes on to ask in vain as long as they are not. -/
structure Keeps (t t' : LockTable) (owner : Owner) (access : Access) (part : StepPart) : Prop where
  callsOf_le : t.callsOf owner part ≤ t'.callsOf owner part
  take?_eq_none : t'.callsOf owner part = t.callsOf owner part →
    t.take? owner access part = none → t'.take? owner access part = none

/-- Doing nothing keeps everybody waiting as before. -/
theorem Keeps.refl (t : LockTable) (owner : Owner) (access : Access) (part : StepPart) :
    t.Keeps t owner access part :=
  ⟨Nat.le_refl _, fun _ h => h⟩

/-- Those who wait have been called. -/
theorem Keeps.of_call (h : t'.callsOf owner part = t.callsOf owner part + 1) :
    t.Keeps t' owner access part :=
  ⟨by omega, fun heq => absurd heq (by omega)⟩

/-- Who wants a side is not concerned by anything but the aggregator lock. -/
theorem Keeps.of_aggregator (t t' : LockTable) (owner : Owner) (access : Access)
    (h : t'.aggregator = t.aggregator) : t.Keeps t' owner access .side := by
  refine ⟨Nat.le_of_eq ?_, fun _ hnone => ?_⟩
  · rw [callsOf, callsOf, h]
  · rw [take?_side_eq_none_iff, h]
    exact take?_side_eq_none_iff.1 hnone

/-- Who wants the lock of a unit is not concerned by anything but that lock. -/
theorem Keeps.of_unitLock (t t' : LockTable) (owner : Owner) (access : Access)
    (h : t'.unitLock owner.unit = t.unitLock owner.unit) : t.Keeps t' owner access .unit := by
  refine ⟨Nat.le_of_eq ?_, fun _ hnone => ?_⟩
  · rw [callsOf, callsOf, h]
  · rw [take?_unit_eq_none_iff, h]
    exact take?_unit_eq_none_iff.1 hnone

section others

variable {other : Owner} {taken : Access}

/-- When another lane takes a side, whoever asks in vain goes on to ask in vain. -/
theorem Keeps.of_acquireSide? (h : t.acquireSide? other taken = some t')
    (hother : other.lane ≠ owner.lane) (access : Access) (part : StepPart) :
    t.Keeps t' owner access part := by
  obtain ⟨l, hl, rfl⟩ := Option.map_eq_some_iff.1 h
  cases part with
  | unit => exact .of_unitLock _ _ owner access rfl
  | side =>
    obtain ⟨hcalls, -⟩ := AggregatorLock.acquire?_cases hl
    refine ⟨Nat.le_of_eq hcalls.symm, fun _ hnone => ?_⟩
    rw [take?_side_eq_none_iff] at hnone ⊢
    exact AggregatorLock.acquire?_eq_none_of_acquire? hl hother hnone

/-- When another lane takes the lock of a unit, whoever asks in vain goes on to ask in vain. -/
theorem Keeps.of_acquireUnit? (h : t.acquireUnit? other = some t')
    (hother : other.lane ≠ owner.lane) (access : Access) (part : StepPart) :
    t.Keeps t' owner access part := by
  obtain ⟨l, hl, rfl⟩ := Option.map_eq_some_iff.1 h
  cases part with
  | side => exact .of_aggregator _ _ owner access rfl
  | unit =>
    by_cases hunit : owner.unit = other.unit
    · obtain ⟨hcalls, holder, hholder, hlane⟩ := UnitLock.acquire?_cases hl
      refine ⟨Nat.le_of_eq ?_, fun _ _ => ?_⟩
      · rw [callsOf, callsOf, hunit, unitLock_setUnitLock_self, hcalls]
      · rw [take?_unit_eq_none_iff, UnitLock.acquire?_eq_none_iff, hunit,
          unitLock_setUnitLock_self]
        exact ⟨holder, hholder, hlane ▸ hother⟩
    · exact .of_unitLock _ _ owner access (unitLock_setUnitLock_of_ne hunit _ _)

/-- When another lane takes a lock of its step, whoever asks in vain goes on to ask in vain. -/
theorem Keeps.of_take? {wanted : StepPart} (h : t.take? other taken wanted = some t')
    (hother : other.lane ≠ owner.lane) (access : Access) (part : StepPart) :
    t.Keeps t' owner access part := by
  cases wanted with
  | side => exact .of_acquireSide? h hother access part
  | unit => exact .of_acquireUnit? h hother access part

/-- When another lane joins those who wait, whoever asks in vain goes on to ask in vain. -/
theorem Keeps.join (t : LockTable) (taken : Access) (wanted : StepPart) (owner : Owner)
    (access : Access) (part : StepPart) : t.Keeps (t.join taken wanted) owner access part := by
  cases wanted with
  | unit => exact .refl _ _ _ _
  | side =>
    cases part with
    | unit => exact .of_unitLock _ _ owner access rfl
    | side =>
      cases taken with
      | read => exact .refl _ _ _ _
      | write =>
        refine ⟨Nat.le_refl _, fun _ hnone => ?_⟩
        rw [take?_side_eq_none_iff] at hnone ⊢
        cases access with
        | write =>
          rw [AggregatorLock.acquire?_write_eq_none_iff] at hnone ⊢
          exact hnone
        | read =>
          obtain ⟨hreader, hwriting, -⟩ := AggregatorLock.acquire?_read_eq_none_iff.1 hnone
          exact AggregatorLock.acquire?_read_eq_none_iff.2
            ⟨hreader, hwriting, .inr (Nat.succ_pos _)⟩

/-- A lane that leaves the queue may open the read side, and then it calls those who wait. -/
theorem Keeps.leave (t : LockTable) (taken : Access) (wanted : StepPart) (owner : Owner)
    (access : Access) (part : StepPart) : t.Keeps (t.leave taken wanted) owner access part := by
  cases wanted with
  | unit => exact .refl _ _ _ _
  | side =>
    cases part with
    | unit => exact .of_unitLock _ _ owner access rfl
    | side =>
      cases taken with
      | read => exact .refl _ _ _ _
      | write => exact .of_call rfl

/-- A lane that gives a side back may open the aggregator lock, and then it calls those who wait. -/
theorem Keeps.releaseSide (t : LockTable) (other : Owner) (taken : Access) (owner : Owner)
    (access : Access) (part : StepPart) :
    t.Keeps (t.releaseSide other taken) owner access part := by
  cases part with
  | unit => exact .of_unitLock _ _ owner access rfl
  | side =>
    refine .of_call ?_
    cases taken with
    | read => rfl
    | write =>
      show (t.aggregator.release other.lane .write).calls = _
      unfold AggregatorLock.release AggregatorLock.giveBack
      simp only
      split <;> rfl

/-- A lane that gives the lock of a unit back may open it, and then it calls those who wait. -/
theorem Keeps.releaseUnit (t : LockTable) (id : String) (owner : Owner) (access : Access)
    (part : StepPart) : t.Keeps (t.releaseUnit id) owner access part := by
  cases part with
  | side => exact .of_aggregator _ _ owner access rfl
  | unit =>
    by_cases hunit : owner.unit = id
    · subst hunit
      have hlock : (t.releaseUnit owner.unit).unitLock owner.unit =
          (t.unitLock owner.unit).release := unitLock_setUnitLock_self _ _ _
      rcases (t.unitLock owner.unit).release_cases with hcalls | ⟨hcalls, hholder⟩
      · refine .of_call ?_
        rw [callsOf, callsOf, hlock, hcalls]
      · refine ⟨Nat.le_of_eq ?_, fun _ hnone => ?_⟩
        · rw [callsOf, callsOf, hlock, hcalls]
        · rw [take?_unit_eq_none_iff, UnitLock.acquire?_eq_none_iff] at hnone ⊢
          rwa [hlock, hholder]
    · exact .of_unitLock _ _ owner access (unitLock_setUnitLock_of_ne hunit _ _)

/-- A small step of another lane. -/
theorem Keeps.of_pursue {wanted : StepPart} {quest : Quest} {stance : Stance}
    (h : t.pursue other taken wanted quest = some (t', stance))
    (hother : other.lane ≠ owner.lane) (access : Access) (part : StepPart) :
    t.Keeps t' owner access part := by
  cases pursuit_of_eq_some h with
  | take ht => exact .of_take? ht hother access part
  | refuse _ => exact .refl _ _ _ _
  | join => exact .join _ _ _ _ _ _
  | look => exact .refl _ _ _ _
  | gain ht => exact .of_take? ht hother access part
  | wait _ => exact .refl _ _ _ _
  | wake _ => exact .refl _ _ _ _
  | leave => exact .leave _ _ _ _ _ _

end others

end LockTable

end PhasedBuild
