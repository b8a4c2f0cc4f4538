import PhasedBuild.Proofs.Lock.Contenders
import PhasedBuild.Proofs.Lock.Exclusion

/-!
# Nobody waits in vain

A `Contest` is any number of lanes that contend for the locks of a build. At every moment one of
them makes a step (`Contender.Moves`), so whatever a lane does to a lock may come between any two
steps of another lane: between its being refused and its joining those who wait, or between its look
at the calls and its being refused again.

* `LockTable.Stands`: what keeps a lock refused to a lane. What other lanes do keeps it refused,
  except that a lock is given back and that a writer waits no more; both are followed by a call.
* `Contender.Spares`: what a step of one lane is to another one that waits.
* `Contest.Sound` ties the locks to what the lanes hold, and says that who waits without having been
  called is refused, or is about to be called. No step breaks it (`Contest.Sound.step`).
* `Contest.Sound.admittedWriters_le_one`: of the writers that count as waiting, one at most has got
  the write side already.
* `Contest.nobody_waits_in_vain`: what that means for waiting lanes, for the number of waiting
  writers and for new readers.
-/

namespace PhasedBuild

open Relation

/-! ### Refusals that stand -/

/-- Calling those who wait for the aggregator lock does not decide whether a side is refused. -/
theorem AggregatorLock.acquire?_call_eq_none_iff {l : AggregatorLock} {owner : Owner}
    {access : Access} : l.call.acquire? owner access = none ↔ l.acquire? owner access = none := by
  cases access with
  | read =>
    rw [acquire?_read_eq_none_iff, acquire?_read_eq_none_iff]
    rfl
  | write =>
    rw [acquire?_write_eq_none_iff, acquire?_write_eq_none_iff]
    rfl

/-- Whether the lock of a unit is refused depends on its holder only. -/
theorem UnitLock.acquire?_eq_none_of_holder {l l' : UnitLock} {owner : Owner}
    (h : l'.holder = l.holder) (hnone : l.acquire? owner = none) : l'.acquire? owner = none := by
  rw [acquire?_eq_none_iff] at hnone ⊢
  rwa [h]

namespace LockTable

variable {t t' : LockTable} {owner : Owner} {want : Want}

/-- One of the locks is in both as it is. -/
def SameAt (t t' : LockTable) : LockName → Prop
  | .aggregator => t'.aggregator = t.aggregator
  | .unit id => t'.unitLock id = t.unitLock id

/-- A change of the aggregator lock leaves all other locks the same. -/
theorem sameAt_aggregator (t : LockTable) (l : AggregatorLock) {lock : LockName}
    (h : lock ≠ .aggregator) : t.SameAt { t with aggregator := l } lock := by
  cases lock with
  | aggregator => exact absurd rfl h
  | unit id => rfl

/-- A change of the lock of one unit leaves all other locks the same. -/
theorem sameAt_setUnitLock (t : LockTable) {id : String} (l : UnitLock) {lock : LockName}
    (h : lock ≠ .unit id) : t.SameAt (t.setUnitLock id l) lock := by
  cases lock with
  | aggregator => rfl
  | unit other =>
    apply unitLock_setUnitLock_of_ne
    intro heq
    exact h (heq ▸ rfl)

/-- Withdrawing from a queue calls nobody by itself. -/
theorem callsAt_withdraw (t : LockTable) (wanted : Want) (lock : LockName) :
    (t.withdraw wanted).callsAt lock = t.callsAt lock := by
  rcases wanted with ⟨_ | _⟩ | ⟨id⟩
  · rfl
  · cases lock <;> rfl
  · rfl

/-- Putting a lock back calls nobody by itself. -/
theorem callsAt_putBack (t : LockTable) (lane : Nat) (wanted : Want) (lock : LockName) :
    (t.putBack lane wanted).callsAt lock = t.callsAt lock := by
  cases wanted with
  | side access =>
    cases lock with
    | aggregator => simp [putBack]
    | unit id => rfl
  | unit id =>
    rw [putBack, callsAt_setUnitLock]
    split
    next hlock => simp [hlock]
    next => rfl

/-- No call to those who wait for a lock is lost, and what is refused to a lane stays refused. -/
structure Stands (t t' : LockTable) (owner : Owner) (want : Want) : Prop where
  callsAt_le : t.callsAt want.lock ≤ t'.callsAt want.lock
  ask?_eq_none : t.ask? owner want = none → t'.ask? owner want = none

namespace Stands

/-- What is refused stays refused as long as nothing happens. -/
theorem refl (t : LockTable) (owner : Owner) (want : Want) : t.Stands t owner want :=
  ⟨Nat.le_refl _, id⟩

/-- What is refused stays refused as long as the lock that is wanted stays the same. -/
theorem of_sameAt (h : t.SameAt t' want.lock) (owner : Owner) : t.Stands t' owner want := by
  cases want with
  | side access =>
    have haggregator : t'.aggregator = t.aggregator := h
    constructor
    · simp [haggregator]
    · simp [haggregator]
  | unit id =>
    have hunit : t'.unitLock id = t.unitLock id := h
    constructor
    · simp [hunit]
    · simp [hunit]

/-- Another lane takes something. -/
theorem of_ask? {other : Owner} {wanted : Want} (h : t.ask? other wanted = some t')
    (hother : other.lane ≠ owner.lane) (want : Want) : t.Stands t' owner want := by
  cases wanted with
  | side taken =>
    obtain ⟨l, hl, rfl⟩ := Option.map_eq_some_iff.1 h
    cases want with
    | unit id => exact of_sameAt (sameAt_aggregator t l (by simp)) owner
    | side access =>
      obtain ⟨hcalls, -⟩ := AggregatorLock.acquire?_cases hl
      constructor
      · simp [hcalls]
      · intro hnone
        rw [ask?_side_eq_none_iff] at hnone ⊢
        exact AggregatorLock.acquire?_eq_none_of_acquire? hl hother hnone
  | unit taken =>
    obtain ⟨l, hl, rfl⟩ := Option.map_eq_some_iff.1 h
    by_cases hlock : want.lock = .unit taken
    · cases want with
      | side access => cases hlock
      | unit id =>
        obtain rfl := LockName.unit.inj hlock
        obtain ⟨hcalls, holder, hholder, hlane⟩ := UnitLock.acquire?_cases hl
        constructor
        · simp [hcalls]
        · intro _
          rw [ask?_unit_eq_none_iff, unitLock_setUnitLock_self, UnitLock.acquire?_eq_none_iff]
          exact ⟨holder, hholder, hlane ▸ hother⟩
    · exact of_sameAt (sameAt_setUnitLock t l hlock) owner

/-- Another lane joins those who wait. -/
theorem enlist (t : LockTable) (wanted : Want) (owner : Owner) (want : Want) :
    t.Stands (t.enlist wanted) owner want := by
  constructor
  · rw [callsAt_enlist]
  · intro hnone
    rcases wanted with ⟨_ | _⟩ | ⟨id⟩
    · exact hnone
    · cases want with
      | unit id =>
        rw [ask?_unit_eq_none_iff] at hnone ⊢
        exact hnone
      | side access =>
        rw [ask?_side_eq_none_iff] at hnone ⊢
        cases access with
        | write =>
          rw [AggregatorLock.acquire?_write_eq_none_iff] at hnone ⊢
          exact hnone
        | read =>
          -- one more writer that waits is one more cause
          obtain ⟨hreader, hwriting, -⟩ := AggregatorLock.acquire?_read_eq_none_iff.1 hnone
          apply AggregatorLock.acquire?_read_eq_none_iff.2
          exact ⟨hreader, hwriting, .inr (Nat.succ_pos _)⟩
    · exact hnone

/-- Those who wait for a lock are called. -/
theorem callAt (t : LockTable) (lock : LockName) (owner : Owner) (want : Want) :
    t.Stands (t.callAt lock) owner want := by
  by_cases hlock : want.lock = lock
  · subst hlock
    constructor
    · simp [callsAt_callAt]
    · intro hnone
      cases want with
      | side access =>
        rw [ask?_side_eq_none_iff] at hnone ⊢
        exact AggregatorLock.acquire?_call_eq_none_iff.2 hnone
      | unit id =>
        rw [ask?_unit_eq_none_iff] at hnone ⊢
        apply UnitLock.acquire?_eq_none_of_holder _ hnone
        simp [LockTable.callAt]
  · cases lock with
    | aggregator => exact of_sameAt (sameAt_aggregator t _ hlock) owner
    | unit id => exact of_sameAt (sameAt_setUnitLock t _ hlock) owner

end Stands

/-- A lane that leaves those who wait is going to call those that it may have kept waiting. -/
theorem ask?_withdraw (wanted : Want) (hnone : t.ask? owner want = none) :
    (t.withdraw wanted).ask? owner want = none ∨ wanted.callOnLeave? = some want.lock := by
  rcases wanted with ⟨_ | _⟩ | ⟨id⟩
  · exact .inl hnone
  · cases want with
    | side access => exact .inr rfl
    | unit id =>
      left
      rw [ask?_unit_eq_none_iff] at hnone ⊢
      exact hnone
  · exact .inl hnone

/-- A lane that gives something back is going to call those who wait for it, or has it still. -/
theorem ask?_putBack (lane : Nat) (wanted : Want) (hnone : t.ask? owner want = none) :
    (t.putBack lane wanted).ask? owner want = none ∨
      t.callOnDrop? wanted = some want.lock := by
  by_cases hlock : want.lock = wanted.lock
  · cases wanted with
    | side access =>
      right
      rw [hlock]
      rfl
    | unit id =>
      by_cases hdepth : (t.unitLock id).depth ≤ 1
      · right
        simp [callOnDrop?, hdepth, hlock]
      · left
        cases want with
        | side access => cases hlock
        | unit other =>
          obtain rfl := LockName.unit.inj hlock
          rw [ask?_unit_eq_none_iff] at hnone ⊢
          apply UnitLock.acquire?_eq_none_of_holder _ hnone
          simp [putBack, UnitLock.giveBack, hdepth]
  · left
    have hstands : t.Stands (t.putBack lane wanted) owner want := by
      cases wanted with
      | side access => exact .of_sameAt (sameAt_aggregator t _ hlock) owner
      | unit id => exact .of_sameAt (sameAt_setUnitLock t _ hlock) owner
    exact hstands.ask?_eq_none hnone

end LockTable

/-! ### What a step is to those who wait -/

namespace Contender

/-- What a step of a lane is to another one that waits: no call to it is lost, a call that was due
is made, and what was refused to it stays refused unless a call becomes due. -/
structure Spares (a b : LockTable × Contender) (owner : Owner) (want : Want) : Prop where
  callsAt_le : a.1.callsAt want.lock ≤ b.1.callsAt want.lock
  callsAt_lt : a.2.errand = .calling want.lock → a.1.callsAt want.lock < b.1.callsAt want.lock
  ask?_eq_none : a.1.ask? owner want = none →
    b.1.ask? owner want = none ∨ b.2.errand = .calling want.lock

variable {t t' : LockTable} {p p' : Contender} {owner : Owner} {want : Want}

/-- A step that has no call to make and leaves none to be made. -/
theorem Spares.of_stands (h : t.Stands t' owner want) (hp : ∀ lock, p.errand ≠ .calling lock) :
    Spares (t, p) (t', p') owner want where
  callsAt_le := h.callsAt_le
  callsAt_lt heq := absurd heq (hp _)
  ask?_eq_none hnone := .inl (h.ask?_eq_none hnone)

/-- A step after which a call may have to be made. -/
theorem Spares.of_call {lane : Nat} {held : List Want} {call : Option LockName}
    (hcalls : t'.callsAt want.lock = t.callsAt want.lock)
    (hp : ∀ lock, p.errand ≠ .calling lock)
    (hnone : t.ask? owner want = none → t'.ask? owner want = none ∨ call = some want.lock) :
    Spares (t, p) (t', ⟨lane, held, .ofCall call⟩) owner want where
  callsAt_le := Nat.le_of_eq hcalls.symm
  callsAt_lt heq := absurd heq (hp _)
  ask?_eq_none h := (hnone h).imp_right fun heq => congrArg Errand.ofCall heq

/-- Whatever a lane does spares every other lane that waits: it loses no call to it, and it opens
the lock only with a call that becomes due. -/
theorem Moves.spares (hmoves : Moves (t, p) (t', p')) (hp : p.errand.IsOf p.lane)
    (hlane : p.lane ≠ owner.lane) (want : Want) : Spares (t, p) (t', p') owner want := by
  cases hmoves with
  | ask => exact .of_stands (.refl _ _ _) nofun
  | take ht =>
    obtain rfl := hp
    exact .of_stands (.of_ask? ht hlane want) nofun
  | refuse _ => exact .of_stands (.refl _ _ _) nofun
  | enlist => exact .of_stands (.enlist _ _ _ _) nofun
  | look => exact .of_stands (.refl _ _ _) nofun
  | gain ht =>
    obtain rfl := hp
    exact .of_stands (.of_ask? ht hlane want) nofun
  | wait _ => exact .of_stands (.refl _ _ _) nofun
  | wake _ => exact .of_stands (.refl _ _ _) nofun
  | cancel => exact .of_call (t.callsAt_withdraw _ _) nofun (LockTable.ask?_withdraw _)
  | leave => exact .of_call (t.callsAt_withdraw _ _) nofun (LockTable.ask?_withdraw _)
  | drop _ => exact .of_call (t.callsAt_putBack _ _ _) nofun (LockTable.ask?_putBack _ _)
  | @call _ _ _ lock =>
    have hstands := LockTable.Stands.callAt t lock owner want
    constructor
    · exact hstands.callsAt_le
    · intro heq
      obtain rfl := Errand.calling.inj heq
      simp [LockTable.callsAt_callAt]
    · intro hnone
      exact .inl (hstands.ask?_eq_none hnone)

/-- A small step of a lane does not change which lane it is. -/
theorem Moves.lane_eq (hmoves : Moves (t, p) (t', p')) : p'.lane = p.lane := by
  cases hmoves <;> rfl

/-- A lane asks in its own name. -/
theorem Moves.isOf (hmoves : Moves (t, p) (t', p')) (hp : p.errand.IsOf p.lane) :
    p'.errand.IsOf p'.lane := by
  cases hmoves with
  | ask _ _ _ _ howner => exact howner
  | take _ => trivial
  | refuse _ => exact hp
  | enlist => exact hp
  | look => exact hp
  | gain _ => exact hp
  | wait _ => exact hp
  | wake _ => exact hp
  | cancel => exact Errand.isOf_ofCall _ _
  | leave => exact Errand.isOf_ofCall _ _
  | drop _ => exact Errand.isOf_ofCall _ _
  | call => trivial

end Contender

/-! ### Contests -/

/-- Lanes that contend for the same locks. -/
structure Contest where
  table : LockTable := {}
  contenders : List Contender
deriving Repr, Inhabited, DecidableEq

namespace Contest

/-- Lanes that are at nothing, and none of which has any lock. -/
def ofLanes (lanes : List Nat) : Contest where
  contenders := lanes.map fun lane => { lane }

/-- One of the lanes makes a step. -/
inductive Step : Contest → Contest → Prop
  | move {t t' : LockTable} {p p' : Contender} (before after : List Contender) :
    Contender.Moves (t, p) (t', p') →
    Step ⟨t, before ++ p :: after⟩ ⟨t', before ++ p' :: after⟩

/-- What all lanes hold. -/
def holds (c : Contest) : List Hold :=
  c.contenders.flatMap (·.holds)

/-- How many lanes have joined those who wait for the write side and have not left them. -/
def queuedWriters (c : Contest) : Nat :=
  c.contenders.countP (·.errand.isQueuedWriter)

/-- How many lanes have joined those who wait for the write side and have neither got it nor given
up. -/
def pendingWriters (c : Contest) : Nat :=
  c.contenders.countP (·.errand.isPendingWriter)

/-- How many lanes have got the write side and have not left those who wait for it. -/
def admittedWriters (c : Contest) : Nat :=
  c.contenders.countP (·.errand.isAdmittedWriter)

/-- Some lane is about to call those who wait for a lock. -/
def IsDue (c : Contest) (lock : LockName) : Prop :=
  ∃ p ∈ c.contenders, p.errand = .calling lock

/-- A lane that waits for a lock, and that has been called so often, is going to ask again: it has
been called since, or is about to be. -/
def Wakes (c : Contest) (lock : LockName) (calls : Nat) : Prop :=
  c.table.callsAt lock ≠ calls ∨ c.IsDue lock

end Contest

/-- A quest that waits has been refused since it was last called, unless a call is due. -/
def Quest.Heeded (t : LockTable) (due : LockName → Prop) (owner : Owner) (want : Want) :
    Quest → Prop
  | first => True
  | refused => True
  | joined => True
  | again calls => calls ≤ t.callsAt want.lock
  | waiting calls => calls ≤ t.callsAt want.lock ∧
      (t.callsAt want.lock = calls → due want.lock ∨ t.ask? owner want = none)
  | admitted => True

namespace Errand

/-- A lane that waits has been refused since it was last called, unless a call is due. -/
def Heeds (t : LockTable) (due : LockName → Prop) : Errand → Prop
  | idle => True
  | asking owner want quest => quest.Heeded t due owner want
  | calling _ => True

variable {t t' : LockTable} {due due' : LockName → Prop}

/-- A lane that has a call to make waits for nothing. -/
theorem heeds_ofCall (t : LockTable) (due : LockName → Prop) (call : Option LockName) :
    (ofCall call).Heeds t due := by
  cases call <;> trivial

/-- A lane heeds its calls after a step of its own. -/
theorem Heeds.move {p p' : Contender} (h : p.errand.Heeds t due)
    (hmoves : Contender.Moves (t, p) (t', p')) (due' : LockName → Prop) :
    p'.errand.Heeds t' due' := by
  cases hmoves with
  | ask => trivial
  | take _ => trivial
  | refuse _ => trivial
  | enlist => trivial
  | look => exact Nat.le_refl _
  | gain _ => trivial
  | wait hnone => exact ⟨h, fun _ => .inr hnone⟩
  | wake _ => trivial
  | cancel => exact heeds_ofCall _ _ _
  | leave => exact heeds_ofCall _ _ _
  | drop _ => exact heeds_ofCall _ _ _
  | call => trivial

/-- A lane heeds its calls after a step of another lane. -/
theorem Heeds.keep {errand : Errand} {p p' : Contender} (h : errand.Heeds t due)
    (hspares : ∀ owner want quest, errand = .asking owner want quest →
      Contender.Spares (t, p) (t', p') owner want)
    (hdue : ∀ lock, due lock → p.errand = .calling lock ∨ due' lock)
    (hcalling : ∀ lock, p'.errand = .calling lock → due' lock) : errand.Heeds t' due' := by
  cases errand with
  | idle => trivial
  | calling _ => trivial
  | asking owner want quest =>
    have hspared := hspares owner want quest rfl
    have hle := hspared.callsAt_le
    cases quest with
    | first => trivial
    | refused => trivial
    | joined => trivial
    | again calls => exact Nat.le_trans h hle
    | waiting calls =>
      obtain ⟨hcalls, hcause⟩ := h
      refine ⟨Nat.le_trans hcalls hle, ?_⟩
      intro heq
      -- nobody has been called in between, so a call that was due is so still
      have hsame : t.callsAt want.lock = calls := Nat.le_antisymm (heq ▸ hle) hcalls
      rcases hcause hsame with hwas | hnone
      · rcases hdue want.lock hwas with hp | hdue
        · have hlt := hspared.callsAt_lt hp
          exact absurd (heq.trans hsame.symm) (Nat.ne_of_gt hlt)
        · exact .inl hdue
      · rcases hspared.ask?_eq_none hnone with hnone | hp
        · exact .inr hnone
        · exact .inl (hcalling want.lock hp)
    | admitted => trivial

end Errand

namespace Contest

/-- Each lane has its own number, asks in its own name and has what it is done waiting for, the
locks are taken by the lanes that have them, as many writers are counted as wait, and who waits for
a lock has been refused since it was last called, unless it is about to be called. -/
structure Sound (c : Contest) : Prop where
  nodup : (c.contenders.map (·.lane)).Nodup
  isOf : ∀ p ∈ c.contenders, p.errand.IsOf p.lane
  admitted : ∀ p ∈ c.contenders, p.HasAdmitted
  accords : c.table.Accords c.holds c.queuedWriters
  heeds : ∀ p ∈ c.contenders, p.errand.Heeds c.table c.IsDue

variable {c c' : Contest} {p : Contender} {others : List Contender}

/-- The holds of all lanes are those of one lane and those of the others. -/
theorem holds_perm (h : c.contenders.Perm (p :: others)) :
    c.holds.Perm (p.holds ++ others.flatMap (·.holds)) :=
  h.flatMap_right _

/-- The writers in the queue are those among the other lanes, and the one lane if it is one of
them. -/
theorem queuedWriters_eq (h : c.contenders.Perm (p :: others)) :
    c.queuedWriters = others.countP (·.errand.isQueuedWriter) + p.errand.weight := by
  rw [queuedWriters, h.countP_eq, List.countP_cons, Errand.weight_eq]

/-- The writers in the queue are those that have not got the write side and those that have. -/
theorem queuedWriters_eq_add (c : Contest) :
    c.queuedWriters = c.pendingWriters + c.admittedWriters := by
  unfold queuedWriters pendingWriters admittedWriters
  induction c.contenders with
  | nil => rfl
  | cons p rest ih =>
    rw [List.countP_cons, List.countP_cons, List.countP_cons, ih, p.errand.count_isQueuedWriter]
    omega

namespace Sound

/-- No step breaks it. -/
theorem step (h : c.Sound) (hstep : c.Step c') : c'.Sound := by
  cases hstep with
  | @move t t' p p' before after hmoves =>
    have hperm : (before ++ p :: after).Perm (p :: (before ++ after)) := List.perm_middle
    have hperm' : (before ++ p' :: after).Perm (p' :: (before ++ after)) := List.perm_middle
    have hmem : p ∈ before ++ p :: after := hperm.mem_iff.2 List.mem_cons_self
    have hlane : p'.lane = p.lane := hmoves.lane_eq
    have hnodup := (hperm.map (·.lane)).nodup_iff.1 h.nodup
    have hothers : ∀ q ∈ before ++ after, q ∈ before ++ p :: after ∧ p.lane ≠ q.lane := by
      intro q hq
      refine ⟨hperm.mem_iff.2 (List.mem_cons_of_mem _ hq), ?_⟩
      intro heq
      exact (List.nodup_cons.1 hnodup).1 (List.mem_map.2 ⟨q, hq, heq.symm⟩)
    have hp := h.isOf p hmem
    refine ⟨?_, ?_, ?_, ?_, ?_⟩
    · rw [(hperm'.map _).nodup_iff, List.map_cons, hlane]
      exact hnodup
    · intro q hq
      rcases List.mem_cons.1 (hperm'.mem_iff.1 hq) with rfl | hq
      · exact hmoves.isOf hp
      · exact h.isOf q (hothers q hq).1
    · intro q hq
      rcases List.mem_cons.1 (hperm'.mem_iff.1 hq) with rfl | hq
      · exact hmoves.hasAdmitted
      · exact h.admitted q (hothers q hq).1
    · have haccords := h.accords.of_perm (holds_perm hperm)
      rw [queuedWriters_eq hperm] at haccords
      rw [queuedWriters_eq hperm']
      exact (hmoves.accords hp haccords).of_perm (holds_perm hperm').symm
    · intro q hq
      rcases List.mem_cons.1 (hperm'.mem_iff.1 hq) with rfl | hq
      · exact (h.heeds p hmem).move hmoves _
      · obtain ⟨hq, hne⟩ := hothers q hq
        apply (h.heeds q hq).keep
        · intro owner want quest herrand
          have howner : q.errand.IsOf q.lane := h.isOf q hq
          rw [herrand] at howner
          exact hmoves.spares hp (howner.symm ▸ hne) want
        · rintro lock ⟨r, hr, hcalling⟩
          rcases List.mem_cons.1 (hperm.mem_iff.1 hr) with rfl | hr
          · exact .inl hcalling
          · exact .inr ⟨r, hperm'.mem_iff.2 (List.mem_cons_of_mem _ hr), hcalling⟩
        · intro lock hcalling
          exact ⟨p', hperm'.mem_iff.2 List.mem_cons_self, hcalling⟩

/-- So it holds whatever steps have been made. -/
theorem steps (h : c.Sound) (hsteps : ReflTransGen Step c c') : c'.Sound := by
  induction hsteps with
  | refl => exact h
  | tail _ hstep ih => exact ih.step hstep

/-- A lane holds what it has taken, and no other lane holds it in its name. -/
theorem mem_held (h : c.Sound) (hp : p ∈ c.contenders) {want : Want}
    (hhold : want.hold p.lane ∈ c.holds) : want ∈ p.held := by
  obtain ⟨q, hq, hmem⟩ := List.mem_flatMap.1 hhold
  obtain ⟨wanted, hwanted, heq⟩ := List.mem_map.1 hmem
  obtain ⟨hlane, rfl⟩ := Want.hold_inj heq
  obtain rfl := List.inj_on_of_nodup_map h.nodup hq hp hlane
  exact hwanted

/-- A lane that has got the write side and is about to leave those who wait for it has that side. -/
theorem write_mem_held (h : c.Sound) (hp : p ∈ c.contenders)
    (hadmitted : p.errand.isAdmittedWriter = true) : .side .write ∈ p.held := by
  have hheld := h.admitted p hp
  unfold Errand.isAdmittedWriter at hadmitted
  split at hadmitted
  next owner quest herrand =>
    obtain rfl := beq_iff_eq.1 hadmitted
    exact hheld owner _ herrand
  next => cases hadmitted

/-- One writer at most has got the write side and not left those who wait for it. -/
theorem admittedWriters_le_one (h : c.Sound) : c.admittedWriters ≤ 1 := by
  by_cases hnone : c.admittedWriters = 0
  · omega
  obtain ⟨p, hp, hadmitted⟩ := List.countP_pos_iff.1 (Nat.pos_of_ne_zero hnone)
  have hold : ∀ q ∈ c.contenders, q.errand.isAdmittedWriter = true →
      .side q.lane .write ∈ c.holds := by
    intro q hq hwriter
    refine List.mem_flatMap.2 ⟨q, hq, ?_⟩
    exact List.mem_map_of_mem (h.write_mem_held hq hwriter)
  -- the write side is held by one lane, and each lane is there once
  have hlane : ∀ q ∈ c.contenders, q.errand.isAdmittedWriter = true → q.lane == p.lane :=
    fun q hq hwriter => beq_iff_eq.2 (h.accords.eq_of_write (hold p hp hadmitted)
      (hold q hq hwriter))
  calc c.admittedWriters
      ≤ c.contenders.countP (·.lane == p.lane) := List.countP_mono_left hlane
    _ = (c.contenders.map (·.lane)).count p.lane := by
      rw [List.count_eq_countP, List.countP_map]
      rfl
    _ ≤ 1 := List.nodup_iff_count_le_one.1 h.nodup p.lane

/-- As long as a writer waits, a lane without any side gets no read side. -/
theorem ask?_read_eq_none (h : c.Sound) (hwriters : 0 < c.table.aggregator.waitingWriters)
    (hp : p ∈ c.contenders) (hsides : ∀ access, .side access ∉ p.held) {owner : Owner}
    (howner : owner.lane = p.lane) : c.table.ask? owner (.side .read) = none := by
  rw [LockTable.ask?_side_eq_none_iff]
  refine AggregatorLock.acquire?_read_eq_none_iff.2 ⟨?_, ?_, .inr hwriters⟩
  · by_contra hreader
    rw [Bool.not_eq_false, howner, h.accords.isReader_iff] at hreader
    exact hsides .read (h.mem_held hp hreader)
  · by_contra hwriting
    rw [Bool.not_eq_false, howner] at hwriting
    exact hsides .write (h.mem_held hp (h.accords.mem_of_isWriter hwriting))

end Sound

/-- A contest of distinct lanes that have nothing is sound. -/
theorem sound_ofLanes {lanes : List Nat} (hlanes : lanes.Nodup) : (ofLanes lanes).Sound := by
  have hidle : ∀ p ∈ (ofLanes lanes).contenders, p.held = [] ∧ p.errand = .idle := by
    intro p hp
    obtain ⟨lane, -, rfl⟩ := List.mem_map.1 hp
    exact ⟨rfl, rfl⟩
  refine ⟨?_, fun p hp => ?_, fun p hp _ _ herrand => ?_, ?_, fun p hp => ?_⟩
  · simpa [ofLanes, Function.comp_def] using hlanes
  · rw [(hidle p hp).2]
    trivial
  · rw [(hidle p hp).2] at herrand
    cases herrand
  · have hholds : (ofLanes lanes).holds = [] :=
      List.flatMap_eq_nil_iff.2 fun p hp => by rw [Contender.holds, (hidle p hp).1]; rfl
    have hwriters : (ofLanes lanes).queuedWriters = 0 :=
      List.countP_eq_zero.2 fun p hp => by rw [(hidle p hp).2]; exact Bool.false_ne_true
    rw [hholds, hwriters]
    exact LockTable.accords_free
  · rw [(hidle p hp).2]
    trivial

/-- A call that is due can be made next, and then all have been called once more that wait for the
lock. -/
theorem exists_step_of_isDue {lock : LockName} (h : c.IsDue lock) :
    ∃ c', c.Step c' ∧ c'.table.callsAt lock = c.table.callsAt lock + 1 := by
  obtain ⟨table, contenders⟩ := c
  obtain ⟨⟨lane, held, errand⟩, hp, rfl⟩ := h
  obtain ⟨before, after, rfl⟩ := List.append_of_mem hp
  exact ⟨_, .move before after .call, table.callsAt_callAt lock⟩

/-- However lanes contend for the locks of a build, each of them doing one thing after the other: if
a lane waits for something that it could have, it has been called since it was refused or is about
to be called; as many waiting writers are counted as have joined those who wait and have not left
them, which are those that have neither got the write side nor given up, and the one, if any, that
has got it and is about to leave; and as long as there is one, no lane without any side gets the
read side. -/
theorem nobody_waits_in_vain {lanes : List Nat} (hlanes : lanes.Nodup)
    (hsteps : ReflTransGen Step (ofLanes lanes) c) :
    (∀ p ∈ c.contenders, ∀ owner want calls, p.errand = .asking owner want (.waiting calls) →
      (c.table.ask? owner want).isSome → c.Wakes want.lock calls) ∧
    (c.table.aggregator.waitingWriters = c.queuedWriters ∧
      c.queuedWriters = c.pendingWriters + c.admittedWriters ∧ c.admittedWriters ≤ 1 ∧
      ∀ p ∈ c.contenders, p.errand.isAdmittedWriter = true → .side .write ∈ p.held) ∧
    (0 < c.table.aggregator.waitingWriters → ∀ p ∈ c.contenders,
      (∀ access, .side access ∉ p.held) → ∀ owner, owner.lane = p.lane →
        c.table.ask? owner (.side .read) = none) := by
  have hsound := (sound_ofLanes hlanes).steps hsteps
  have hwaiting := hsound.accords.aggregator.waitingWriters_eq
  refine ⟨?_, ⟨hwaiting, c.queuedWriters_eq_add, hsound.admittedWriters_le_one,
    fun _ hp => hsound.write_mem_held hp⟩, ?_⟩
  · intro p hp owner want calls herrand hsome
    have hheeds := hsound.heeds p hp
    rw [herrand] at hheeds
    obtain ⟨-, hcause⟩ := hheeds
    by_cases hcalls : c.table.callsAt want.lock = calls
    · rcases hcause hcalls with hdue | hnone
      · exact .inr hdue
      · rw [hnone] at hsome
        cases hsome
    · exact .inl hcalls
  · intro hwriters p hp hsides owner howner
    exact hsound.ask?_read_eq_none hwriters hp hsides howner

/-- The first of three lanes has given back the read side and is about to call, the second one waits
for the write side, and the third one has nothing. -/
def ofTrio : Contest where
  table := { aggregator := { waitingWriters := 1 } }
  contenders := [
    { lane := 1, errand := .calling .aggregator },
    { lane := 2, errand := .asking ⟨2, "site", "seal"⟩ (.side .write) (.waiting 0) },
    { lane := 3 }]

/-- The second lane comes to wait while the first one has the read side. -/
theorem steps_ofTrio : ReflTransGen Step (ofLanes [1, 2, 3]) ofTrio := by
  have htaken : ReflTransGen Step (ofLanes [1, 2, 3])
      ⟨{ aggregator := { readers := [⟨⟨1, "site", "draft"⟩, 1⟩] } },
        [{ lane := 1, held := [.side .read] }, { lane := 2 }, { lane := 3 }]⟩ :=
    .head (.move [] _ (.ask _ _ _ (.side .read) rfl)) (.single (.move [] _ (.take rfl)))
  have hjoined : ReflTransGen Step
      ⟨{ aggregator := { readers := [⟨⟨1, "site", "draft"⟩, 1⟩] } },
        [{ lane := 1, held := [.side .read] }, { lane := 2 }, { lane := 3 }]⟩
      ⟨{ aggregator := { readers := [⟨⟨1, "site", "draft"⟩, 1⟩], waitingWriters := 1 } },
        [{ lane := 1, held := [.side .read] },
          { lane := 2, errand := .asking ⟨2, "site", "seal"⟩ (.side .write) .joined },
          { lane := 3 }]⟩ :=
    .head (.move [_] _ (.ask _ _ _ (.side .write) rfl))
      (.head (.move [_] _ (.refuse rfl)) (.single (.move [_] _ .enlist)))
  have hdropped : ReflTransGen Step
      ⟨{ aggregator := { readers := [⟨⟨1, "site", "draft"⟩, 1⟩], waitingWriters := 1 } },
        [{ lane := 1, held := [.side .read] },
          { lane := 2, errand := .asking ⟨2, "site", "seal"⟩ (.side .write) .joined },
          { lane := 3 }]⟩ ofTrio :=
    .head (.move [_] _ .look)
      (.head (.move [_] _ (.wait rfl)) (.single (.move [] _ (.drop List.mem_cons_self))))
  exact (htaken.trans hjoined).trans hdropped

/-- The lane that waits could have the write side now, so it is woken; and the third lane gets no
read side, since a writer waits. -/
theorem waiting_of_trio : [1, 2, 3].Nodup ∧ ReflTransGen Step (ofLanes [1, 2, 3]) ofTrio ∧
    (ofTrio.table.ask? ⟨2, "site", "seal"⟩ (.side .write)).isSome ∧ ofTrio.Wakes .aggregator 0 ∧
    0 < ofTrio.table.aggregator.waitingWriters ∧
    ofTrio.table.aggregator.waitingWriters = ofTrio.queuedWriters ∧
    ofTrio.table.ask? ⟨3, "site", "draft"⟩ (.side .read) = none := by
  have hlanes : [1, 2, 3].Nodup := by decide
  obtain ⟨hwakes, ⟨hwriters, -⟩, hreaders⟩ := nobody_waits_in_vain hlanes steps_ofTrio
  have hsecond : { lane := 2, errand := .asking ⟨2, "site", "seal"⟩ (.side .write) (.waiting 0) } ∈
      ofTrio.contenders := .tail _ (.head _)
  have hthird : { lane := 3 } ∈ ofTrio.contenders := .tail _ (.tail _ (.head _))
  exact ⟨hlanes, steps_ofTrio, rfl, hwakes _ hsecond _ _ _ rfl rfl, Nat.one_pos, hwriters,
    hreaders Nat.one_pos _ hthird (fun _ => List.not_mem_nil) _ rfl⟩

/-- The second lane has been called, has asked again and has the write side. It has not left those
who wait. -/
def ofTrioAdmitted : Contest where
  table :=
    { aggregator :=
        { writer := some ⟨2, "site", "seal"⟩, writeDepth := 1, waitingWriters := 1, calls := 1 } }
  contenders := [
    { lane := 1 },
    { lane := 2, held := [.side .write],
      errand := .asking ⟨2, "site", "seal"⟩ (.side .write) .admitted },
    { lane := 3 }]

/-- Three lanes come to the point where the first of them has got the write side and still counts as
waiting for it. -/
theorem steps_ofTrioAdmitted : ReflTransGen Step ofTrio ofTrioAdmitted :=
  .head (.move [] _ .call) (.head (.move [_] _ (.wake (by decide)))
    (.head (.move [_] _ .look) (.single (.move [_] _ (.gain rfl)))))

/-- The locks after a lane has asked for the write side in vain and then, when the reader has gone,
once more with success. It has not given up the acquisition that waits. -/
def tableOfTwice : LockTable :=
  let reader : Owner := ⟨2, "lib", "test"⟩
  let writer : Owner := ⟨1, "root", "survey"⟩
  let read := (LockTable.begin {} reader (.aggregator .read)).1
  let waiting := (read.begin writer (.aggregator .write)).1
  ((waiting.releaseSide reader .read).begin writer (.aggregator .write)).1

/-- The number of waiting writers need not be that of the writers that have not got the write side.
A writer that has got it still counts, until it leaves those who wait; and it counts for as long as
another acquisition of its own waits. -/
theorem admitted_writer_still_counts :
    (¬ ∀ lanes : List Nat, lanes.Nodup → ∀ c, ReflTransGen Step (ofLanes lanes) c →
      c.table.aggregator.waitingWriters = c.pendingWriters) ∧
    tableOfTwice.aggregator.writer = some ⟨1, "root", "survey"⟩ ∧
      tableOfTwice.aggregator.waitingWriters = 1 := by
  refine ⟨fun h => ?_, by decide⟩
  have hsteps := steps_ofTrio.trans steps_ofTrioAdmitted
  have heq := h [1, 2, 3] (by decide) ofTrioAdmitted hsteps
  revert heq
  decide

end Contest

end PhasedBuild
