import Mathlib.Algebra.BigOperators.Group.List.Basic
import Mathlib.Algebra.GroupWithZero.Nat
import PhasedBuild.Build.Coordinator
import PhasedBuild.Proofs.Lock.Pursuit

/-!
# Lanes side by side

A `Crew` is any number of lanes that run their plans over the same locks. At every moment one of
them makes a step, whichever can: it does an action that needs no lock, goes one small step on its
way to the locks of a step (`LockTable.pursue`), or gives a lock back. To give a lock back and to
call those who wait for it is one step; a call that came later could only make a lane ask in vain
once more.

What a lane goes through is settled before it starts. But every lane has an executor of its own, so
its steps may come to whatever they come to beside the others.

* `Job.bracketed_lane`: whatever a lane runs, forked work on any unit included, it takes and gives
  back the locks of one step after the other.
* `LockTable.Advances` is what a lane does to the locks and to its stance in one step.
* `Crew.Sound` ties the locks to what the lanes are at. No step breaks it (`Crew.Sound.next`), so it
  holds however the lanes move (`Crew.sound_after`).
-/

namespace PhasedBuild

/-! ### The brackets around steps -/

/-- What a lane may do while it has the locks of a step. -/
def Action.IsUnder (owner : Owner) (access : Access) : Action → Prop
  | reported _ => True
  | requested _ => True
  | locked _ _ => False
  | ran call => call.owner = owner ∧ call.unit.id = owner.unit ∧
      access = Access.ofStep call.step.isAggregating
  | unlocked _ _ => False

/-- What is done within a step is done under the locks of that step. -/
theorem Action.IsWithin.isUnder {unit : BuildUnit} {lane : Nat} {step : Step} {action : Action}
    (h : action.IsWithin unit ⟨lane, unit.id, step.display⟩ step) :
    action.IsUnder ⟨lane, unit.id, step.display⟩ (Access.ofStep step.isAggregating) := by
  cases action with
  | reported _ => trivial
  | requested _ => trivial
  | locked _ _ => exact h
  | ran call =>
    obtain ⟨howner, hunit, hstep⟩ := h
    exact ⟨howner, congrArg BuildUnit.id hunit, by rw [hstep]⟩
  | unlocked _ _ => exact h

/-- The actions that are left to a lane which is between two steps, or which has the locks of one:
it takes and gives back the locks of one step after the other, and runs a step only while it has the
locks of that step. -/
inductive Bracketed (lane : Nat) : Option (Owner × Access) → List Action → Prop
  | nil : Bracketed lane none []
  | report {event : Event} {rest : List Action} :
    Bracketed lane none rest → Bracketed lane none (.reported event :: rest)
  | lock {owner : Owner} {access : Access} {rest : List Action} : owner.lane = lane →
    Bracketed lane (some (owner, access)) rest → Bracketed lane none (.locked owner access :: rest)
  | act {owner : Owner} {access : Access} {action : Action} {rest : List Action} :
    action.IsUnder owner access → Bracketed lane (some (owner, access)) rest →
      Bracketed lane (some (owner, access)) (action :: rest)
  | unlock {owner : Owner} {access : Access} {rest : List Action} :
    Bracketed lane none rest →
      Bracketed lane (some (owner, access)) (.unlocked owner access :: rest)

namespace Bracketed

variable {lane : Nat}

/-- Bracketed actions may be followed by actions that are bracketed from the outside. -/
theorem append {inside : Option (Owner × Access)} {actions others : List Action}
    (h : Bracketed lane inside actions) (hothers : Bracketed lane none others) :
    Bracketed lane inside (actions ++ others) := by
  induction h with
  | nil => exact hothers
  | report _ ih => exact .report ih
  | lock howner _ ih => exact .lock howner ih
  | act haction _ ih => exact .act haction ih
  | unlock _ ih => exact .unlock ih

/-- Actions under the locks of a step are bracketed when giving the locks back comes last. -/
theorem of_isUnder {owner : Owner} {access : Access} {actions : List Action}
    (h : ∀ action ∈ actions, action.IsUnder owner access) :
    Bracketed lane (some (owner, access)) (actions ++ [.unlocked owner access]) := by
  induction actions with
  | nil => exact .unlock .nil
  | cons action rest ih =>
    exact .act (h action List.mem_cons_self) (ih fun a ha => h a (List.mem_cons_of_mem _ ha))

end Bracketed

/-- An executor with locks brackets every step. Forked work comes before the brackets of the step
that forks. -/
theorem Executor.keeps_bracketed {x : Executor} (hlocking : x.locking = true) (lane : Nat) :
    x.Keeps lane (Bracketed lane none) where
  report _ hactions := hactions.append (.report .nil)
  perform unit depth step p hactions := by
    obtain ⟨added, hadded, heq⟩ := x.exists_actions_performStep unit depth step p lane
    rw [heq, if_pos hlocking]
    exact hactions.append
      (.lock rfl (Bracketed.of_isUnder fun action haction => (hadded action haction).isUnder))

/-! ### What lanes do to the locks -/

/-- A quest that waits has been refused since it was last called. -/
def Quest.Heeds (t : LockTable) (owner : Owner) (access : Access) (part : StepPart) : Quest → Prop
  | first => True
  | refused => True
  | joined => True
  | again calls => calls ≤ t.callsOf owner part
  | waiting calls => calls ≤ t.callsOf owner part ∧
      (t.callsOf owner part = calls → t.take? owner access part = none)
  | admitted => True

/-- The lane in whose name a stance is taken. -/
def Stance.IsOf (lane : Nat) : Stance → Prop
  | outside => True
  | asking owner _ _ _ => owner.lane = lane
  | inside owner _ => owner.lane = lane
  | leaving owner _ => owner.lane = lane

/-- A lane that waits for a lock has been refused since it was last called. -/
def Stance.Heeds (t : LockTable) : Stance → Prop
  | outside => True
  | asking owner access part quest => quest.Heeds t owner access part
  | inside _ _ => True
  | leaving _ _ => True

namespace LockTable

/-- What a lane does to the locks and to its stance in one step. -/
inductive Advances (lane : Nat) : LockTable → Stance → LockTable → Stance → Prop
  /-- It does something that needs no lock. -/
  | stay (t : LockTable) (stance : Stance) : Advances lane t stance t stance
  /-- It comes to a step. -/
  | ask (t : LockTable) (owner : Owner) (access : Access) : owner.lane = lane →
    Advances lane t .outside t (.asking owner access .side .first)
  | pursue {t t' : LockTable} {owner : Owner} {access : Access} {part : StepPart} {quest : Quest}
    {stance : Stance} : owner.lane = lane → t.pursue owner access part quest = some (t', stance) →
      Advances lane t (.asking owner access part quest) t' stance
  | unlock (t : LockTable) (owner : Owner) (access : Access) : owner.lane = lane →
    Advances lane t (.inside owner access) (t.releaseUnit owner.unit) (.leaving owner access)
  | leave (t : LockTable) (owner : Owner) (access : Access) : owner.lane = lane →
    Advances lane t (.leaving owner access) (t.releaseSide owner access) .outside

variable {t t' : LockTable} {lane : Nat} {stance stance' : Stance}

/-- A step of a lane keeps the account of what it holds beside others. -/
theorem Accords.advance {holds : List Hold} {queued : Nat}
    (h : t.Accords (stance.holds ++ holds) (queued + stance.weight))
    (hstep : Advances lane t stance t' stance') :
    t'.Accords (stance'.holds ++ holds) (queued + stance'.weight) := by
  cases hstep with
  | stay => exact h
  | ask => exact h
  | pursue _ hpursue => exact h.pursue hpursue
  | unlock owner => exact Accords.releaseUnit h
  | leave => exact Accords.releaseSide h

/-- What a lane does is what others do to every other lane. -/
theorem Keeps.of_advances (hstep : Advances lane t stance t' stance') {owner : Owner}
    (howner : owner.lane ≠ lane) (access : Access) (part : StepPart) :
    t.Keeps t' owner access part := by
  cases hstep with
  | stay => exact .refl _ _ _ _
  | ask => exact .refl _ _ _ _
  | pursue hlane hpursue => exact .of_pursue hpursue (hlane ▸ howner.symm) access part
  | unlock => exact .releaseUnit _ _ _ _ _
  | leave => exact .releaseSide _ _ _ _ _ _

end LockTable

namespace Stance

variable {t t' : LockTable} {lane : Nat} {stance stance' : Stance}

/-- Who has just got a lock waits for nothing, or has not asked for the next lock yet. -/
theorem heeds_next (t : LockTable) (owner : Owner) (access : Access) (part : StepPart) :
    (part.next owner access).Heeds t := by
  cases part <;> trivial

/-- A lane heeds its calls when others have made a step. -/
theorem Heeds.keep (h : stance.Heeds t)
    (hkeeps : ∀ owner access part quest, stance = .asking owner access part quest →
      t.Keeps t' owner access part) : stance.Heeds t' := by
  cases stance with
  | outside => trivial
  | inside _ _ => trivial
  | leaving _ _ => trivial
  | asking owner access part quest =>
    have hkept := hkeeps owner access part quest rfl
    cases quest with
    | first => trivial
    | refused => trivial
    | joined => trivial
    | again calls => exact Nat.le_trans h hkept.callsOf_le
    | waiting calls =>
      obtain ⟨hcalls, hnone⟩ := h
      refine ⟨Nat.le_trans hcalls hkept.callsOf_le, fun heq => ?_⟩
      -- nobody has been called in between
      have hsame : t.callsOf owner part = calls :=
        Nat.le_antisymm (heq ▸ hkept.callsOf_le) hcalls
      exact hkept.take?_eq_none (heq.trans hsame.symm) (hnone hsame)
    | admitted => trivial

/-- A lane heeds its calls after a step of its own. -/
theorem Heeds.advance (h : stance.Heeds t) (hstep : t.Advances lane stance t' stance') :
    stance'.Heeds t' := by
  cases hstep with
  | stay => exact h
  | ask => trivial
  | unlock => trivial
  | leave => trivial
  | pursue _ hpursue =>
    cases LockTable.pursuit_of_eq_some hpursue with
    | take _ => exact heeds_next _ _ _ _
    | refuse _ => trivial
    | join => trivial
    | look => exact Nat.le_refl _
    | gain _ => trivial
    | wait hnone => exact ⟨h, fun _ => hnone⟩
    | wake _ => trivial
    | leave => exact heeds_next _ _ _ _

end Stance

/-! ### Lanes and their locks -/

/-- What a lane is to do, with whatever executor. -/
structure Job where
  executor : Executor
  locking : executor.locking = true
  unit : String
  state : UnitState
  plan : ExecutionPlan

/-- The lane that does a job. -/
def Job.lane (job : Job) (number : Nat) : Lane where
  number
  unit := job.unit
  before := job.state
  work := job.executor.work number job.unit job.state job.plan

/-- Whatever a lane runs, it brackets every step. -/
theorem Job.bracketed_lane (job : Job) (number : Nat) :
    Bracketed number none (job.lane number).work.actions := by
  show Bracketed number none
    (job.executor.work number job.unit job.state job.plan).actions
  unfold Executor.work
  split
  next unit _ =>
    exact (Executor.keeps_bracketed job.locking number).execute .nil unit job.state
      job.plan.executions
  next => exact .nil

/-- The actions that are left to a lane. -/
def Lane.left (l : Lane) : List Action :=
  l.work.actions.drop l.done

/-- The next action of a lane is the first of those that are left to it. -/
theorem Lane.next?_eq_head? (l : Lane) : l.next? = l.left.head? :=
  List.head?_drop.symm

/-- A lane among others, with the locks that it has. -/
structure Worker where
  lane : Lane
  /-- The steps whose locks it has, the last one first. -/
  held : List (Owner × Access) := []
  /-- Where it stands with locks that it is taking or giving back. -/
  stance : Stance := .outside

namespace Worker

/-- The lane has done its next action. -/
def advance (w : Worker) : Worker :=
  { w with lane := { w.lane with done := w.lane.done + 1 }, stance := .outside }

/-- The lane takes a stance. When it is inside of a step it has the locks and goes on. -/
def settle (w : Worker) : Stance → Worker
  | .inside owner access => { w.advance with held := (owner, access) :: w.held }
  | stance => { w with stance }

/-- The lane turns to its next action. It can only give back the locks of a step that it has. -/
def act? (t : LockTable) (w : Worker) : Option (LockTable × Worker) :=
  match w.lane.next? with
  | none => none
  | some (.locked owner access) =>
    some (t, { w with stance := .asking owner access .side .first })
  | some (.unlocked owner access) =>
    if (owner, access) ∈ w.held then
      some (t.releaseUnit owner.unit,
        { w with held := w.held.erase (owner, access), stance := .leaving owner access })
    else none
  | some _ => some (t, w.advance)

/-- One step of the lane. There is none if it has come to its end, and while it waits for a lock and
has not been called. -/
def step? (t : LockTable) (w : Worker) : Option (LockTable × Worker) :=
  match w.stance with
  | .outside => w.act? t
  | .asking owner access part quest =>
    (t.pursue owner access part quest).map fun (t, stance) => (t, w.settle stance)
  | .inside _ _ => w.act? t
  | .leaving owner access => some (t.releaseSide owner access, w.advance)

/-- The step that the lane runs. It runs from the moment when it is the next thing to be done until
it is done. -/
def running? (w : Worker) : Option StepCall :=
  w.lane.next?.bind Action.call?

/-- Where a lane stands that has the locks of some steps. -/
def statusOf (stance : Stance) : List (Owner × Access) → Stance
  | [] => stance
  | (owner, access) :: _ => .inside owner access

/-- Where the lane stands with the locks of all its steps. -/
def status (w : Worker) : Stance :=
  statusOf w.stance w.held

/-- The locks that a lane has and its stance fit the actions that are left to it. -/
inductive Fits (lane : Nat) : List (Owner × Access) → Stance → List Action → Prop
  | outside {rest : List Action} : Bracketed lane none rest → Fits lane [] .outside rest
  | asking {owner : Owner} {access : Access} {part : StepPart} {quest : Quest}
    {rest : List Action} : owner.lane = lane → Bracketed lane (some (owner, access)) rest →
      Fits lane [] (.asking owner access part quest) (.locked owner access :: rest)
  | inside {owner : Owner} {access : Access} {rest : List Action} : owner.lane = lane →
    Bracketed lane (some (owner, access)) rest → Fits lane [(owner, access)] .outside rest
  | leaving {owner : Owner} {access : Access} {rest : List Action} : owner.lane = lane →
    Bracketed lane none rest → Fits lane [] (.leaving owner access) (.unlocked owner access :: rest)

/-- The lane has the locks of at most one step, and stands where its actions say. -/
def IsFit (w : Worker) : Prop :=
  Fits w.lane.number w.held w.stance w.lane.left

end Worker

/-- A small step leads to the next one on the way to the locks of a step, or has both locks. -/
theorem LockTable.pursue_cases {t t' : LockTable} {owner : Owner} {access : Access}
    {part : StepPart} {quest : Quest} {stance : Stance}
    (h : t.pursue owner access part quest = some (t', stance)) :
    (∃ part quest, stance = .asking owner access part quest) ∨ stance = .inside owner access := by
  have hnext : (∃ other quest, part.next owner access = .asking owner access other quest) ∨
      part.next owner access = .inside owner access := by
    cases part with
    | side => exact .inl ⟨_, _, rfl⟩
    | unit => exact .inr rfl
  cases pursuit_of_eq_some h with
  | take _ => exact hnext
  | refuse _ => exact .inl ⟨_, _, rfl⟩
  | join => exact .inl ⟨_, _, rfl⟩
  | look => exact .inl ⟨_, _, rfl⟩
  | gain _ => exact .inl ⟨_, _, rfl⟩
  | wait _ => exact .inl ⟨_, _, rfl⟩
  | wake _ => exact .inl ⟨_, _, rfl⟩
  | leave => exact hnext

/-- Only a lane that waits and has not been called can make no small step. -/
theorem LockTable.waiting_of_pursue_eq_none {t : LockTable} {owner : Owner} {access : Access}
    {part : StepPart} {quest : Quest} (h : t.pursue owner access part quest = none) :
    ∃ calls, quest = .waiting calls ∧ t.callsOf owner part = calls := by
  cases quest with
  | first =>
    rw [pursue] at h
    split at h <;> cases h
  | refused => cases h
  | joined => cases h
  | again calls =>
    rw [pursue] at h
    split at h <;> cases h
  | waiting calls =>
    rw [pursue] at h
    split at h
    next hcalls => exact ⟨calls, rfl, hcalls⟩
    next => cases h
  | admitted => cases h

namespace Worker

variable {t t' : LockTable} {w w' : Worker}

/-- Doing an action takes it off those that are left. -/
theorem left_advance (w : Worker) : w.advance.lane.left = w.lane.left.tail :=
  List.tail_drop.symm

/-- What a lane does under the locks of a step takes no further lock. -/
theorem act?_of_isUnder {owner : Owner} {access : Access} {action : Action}
    (haction : action.IsUnder owner access) (hnext : w.lane.next? = some action) :
    w.act? t = some (t, w.advance) := by
  rw [act?, hnext]
  cases action with
  | reported _ => rfl
  | requested _ => rfl
  | locked _ _ => exact haction.elim
  | ran _ => rfl
  | unlocked _ _ => exact haction.elim

/-- What a fit lane can do: it has come to its end, it waits for a lock without having been called,
or it makes one of the steps that a lane may make and is fit after it. -/
theorem IsFit.step?_cases (h : w.IsFit) (t : LockTable) :
    (w.step? t = none ∧ (w.status = .outside ∧ w.lane.next? = none ∨
      ∃ owner access part calls, w.status = .asking owner access part (.waiting calls) ∧
        t.callsOf owner part = calls)) ∨
    ∃ t' w', w.step? t = some (t', w') ∧ w'.IsFit ∧ w'.lane.number = w.lane.number ∧
      LockTable.Advances w.lane.number t w.status t' w'.status := by
  obtain ⟨lane, held, stance⟩ := w
  have hnext := lane.next?_eq_head?
  have htail : (Worker.mk lane held stance).advance.lane.left = lane.left.tail := left_advance _
  unfold IsFit at h
  generalize hleft : lane.left = left at h hnext htail
  cases h with
  | outside hrest =>
    have hact : step? t ⟨lane, [], .outside⟩ = act? t ⟨lane, [], .outside⟩ := rfl
    cases hrest with
    | nil => exact .inl ⟨by rw [hact, act?, hnext]; rfl, .inl ⟨rfl, hnext⟩⟩
    | report hrest =>
      refine .inr ⟨t, (Worker.mk lane [] .outside).advance, by rw [hact, act?, hnext]; rfl, ?_, rfl,
        .stay _ _⟩
      rw [IsFit, htail]
      exact .outside hrest
    | @lock owner access _ howner hrest =>
      refine .inr ⟨t, ⟨lane, [], .asking owner access .side .first⟩,
        by rw [hact, act?, hnext]; rfl, ?_, rfl, .ask _ _ _ howner⟩
      rw [IsFit, hleft]
      exact .asking howner hrest
  | @asking owner access part quest rest howner hrest =>
    have hask : step? t ⟨lane, [], .asking owner access part quest⟩ =
        (t.pursue owner access part quest).map fun (t, stance) =>
          (t, (Worker.mk lane [] (.asking owner access part quest)).settle stance) := rfl
    cases hpursue : t.pursue owner access part quest with
    | none =>
      obtain ⟨calls, rfl, hcalls⟩ := LockTable.waiting_of_pursue_eq_none hpursue
      exact .inl ⟨by rw [hask, hpursue]; rfl, .inr ⟨owner, access, part, calls, rfl, hcalls⟩⟩
    | some outcome =>
      obtain ⟨table, stance⟩ := outcome
      refine .inr ⟨table, (Worker.mk lane [] (.asking owner access part quest)).settle stance,
        by rw [hask, hpursue]; rfl, ?_⟩
      rcases LockTable.pursue_cases hpursue with ⟨part, quest, rfl⟩ | rfl
      · refine ⟨?_, rfl, .pursue howner hpursue⟩
        show Fits lane.number [] _ lane.left
        rw [hleft]
        exact .asking howner hrest
      · refine ⟨?_, rfl, .pursue howner hpursue⟩
        show Fits lane.number [_] .outside (Worker.mk lane [] _).advance.lane.left
        rw [htail]
        exact .inside howner hrest
  | @inside owner access rest howner hrest =>
    have hact : step? t ⟨lane, [(owner, access)], .outside⟩ =
        act? t ⟨lane, [(owner, access)], .outside⟩ := rfl
    cases hrest with
    | act haction hrest =>
      refine .inr ⟨t, (Worker.mk lane [(owner, access)] .outside).advance,
        by rw [hact, act?_of_isUnder haction hnext], ?_, rfl, .stay _ _⟩
      rw [IsFit, htail]
      exact .inside howner hrest
    | unlock hrest =>
      refine .inr ⟨t.releaseUnit owner.unit, ⟨lane, [], .leaving owner access⟩,
        by rw [hact, act?, hnext]; simp, ?_, rfl, .unlock _ _ _ howner⟩
      rw [IsFit, hleft]
      exact .leaving howner hrest
  | @leaving owner access rest howner hrest =>
    refine .inr ⟨t.releaseSide owner access, (Worker.mk lane [] (.leaving owner access)).advance,
      rfl, ?_, rfl, .leave _ _ _ howner⟩
    rw [IsFit, htail]
    exact .outside hrest

/-- A step of a fit lane leaves it fit, under the same number, and advances its stance and the
locks. -/
theorem IsFit.of_step?_eq_some (h : w.IsFit) (hstep : w.step? t = some (t', w')) :
    w'.IsFit ∧ w'.lane.number = w.lane.number ∧
      LockTable.Advances w.lane.number t w.status t' w'.status := by
  obtain ⟨hnone, -⟩ | ⟨t₁, w₁, hsome, hfit⟩ := h.step?_cases t
  · rw [hnone] at hstep
    cases hstep
  · obtain ⟨rfl, rfl⟩ := Prod.mk.inj (Option.some.inj (hsome.symm.trans hstep))
    exact hfit

/-- A fit lane that has no step has done all its actions, or waits for a lock and has not been
called. -/
theorem IsFit.of_step?_eq_none (h : w.IsFit) (hstuck : w.step? t = none) :
    w.status = .outside ∧ w.lane.next? = none ∨
      ∃ owner access part calls, w.status = .asking owner access part (.waiting calls) ∧
        t.callsOf owner part = calls := by
  obtain ⟨-, hcause⟩ | ⟨t₁, w₁, hsome, -⟩ := h.step?_cases t
  · exact hcause
  · rw [hstuck] at hsome
    cases hsome

/-- The step that a lane runs is the next thing to be done. -/
theorem next?_of_running {call : StepCall} (h : w.running? = some call) :
    w.lane.next? = some (.ran call) := by
  obtain ⟨action, hnext, haction⟩ := Option.bind_eq_some_iff.1 h
  cases action with
  | ran other =>
    obtain rfl := Option.some.inj haction
    exact hnext
  | reported _ => cases haction
  | requested _ => cases haction
  | locked _ _ => cases haction
  | unlocked _ _ => cases haction

namespace Fits

variable {lane : Nat} {held : List (Owner × Access)} {stance : Stance} {left : List Action}

/-- A lane has the locks of one step at a time at most. -/
theorem length_held_le (h : Fits lane held stance left) : held.length ≤ 1 := by
  cases h with
  | outside _ => exact Nat.zero_le _
  | asking _ _ => exact Nat.zero_le _
  | inside _ _ => exact Nat.le_refl _
  | leaving _ _ => exact Nat.zero_le _

/-- A lane asks, holds and gives back in its own name. -/
theorem isOf (h : Fits lane held stance left) : (statusOf stance held).IsOf lane := by
  cases h with
  | outside _ => trivial
  | asking howner _ => exact howner
  | inside howner _ => exact howner
  | leaving howner _ => exact howner

/-- A step runs between its locks. -/
theorem of_ran (h : Fits lane held stance left) {call : StepCall}
    (hnext : left.head? = some (.ran call)) :
    statusOf stance held = .inside call.owner (Access.ofStep call.step.isAggregating) ∧
      call.unit.id = call.owner.unit ∧ call.owner.lane = lane := by
  cases h with
  | outside hrest =>
    cases hrest with
    | nil => cases hnext
    | report _ => cases hnext
    | lock _ _ => cases hnext
  | asking _ _ => cases hnext
  | inside howner hrest =>
    cases hrest with
    | act haction _ =>
      obtain rfl := Option.some.inj hnext
      obtain ⟨rfl, hunit, rfl⟩ := haction
      exact ⟨rfl, hunit, howner⟩
    | unlock _ => cases hnext
  | leaving _ _ => cases hnext

/-- A lane that is about to begin with a step has no locks. -/
theorem of_locked (h : Fits lane held .outside left) {owner : Owner} {access : Access}
    (hnext : left.head? = some (.locked owner access)) : held = [] := by
  cases h with
  | outside _ => rfl
  | inside _ hrest =>
    cases hrest with
    | act haction _ =>
      obtain rfl := Option.some.inj hnext
      exact haction.elim
    | unlock _ => cases hnext

end Fits

end Worker

/-! ### Crews -/

/-- Lanes that move side by side over the same locks. -/
structure Crew where
  table : LockTable := {}
  workers : List Worker
  /-- What has been done, in order, each with the number of its lane. -/
  trace : List (Nat × Action) := []

/-- What a lane has done between two moments. -/
def Worker.doneUntil (w later : Worker) : List (Nat × Action) :=
  (w.lane.left.take (later.lane.done - w.lane.done)).map fun action => (w.lane.number, action)

namespace Crew

/-- Lanes that are about to do their jobs. None of them has any lock. -/
def ofJobs (jobs : List Job) : Crew where
  workers := jobs.mapIdx fun i job => { lane := job.lane (i + 1) }

/-- One step of the lane at a position, if it can make one. -/
def move? (c : Crew) (i : Nat) : Option Crew := do
  let w ← c.workers[i]?
  let (table, later) ← w.step? c.table
  some { table, workers := c.workers.set i later, trace := c.trace ++ w.doneUntil later }

/-- A crew after the lane at a position has made a step, if it can make one. -/
def next (c : Crew) (i : Nat) : Crew :=
  (c.move? i).getD c

/-- A crew after steps of the lanes at these positions. -/
def after (c : Crew) (moves : List Nat) : Crew :=
  moves.foldl next c

/-- What all lanes hold. -/
def holds (c : Crew) : List Hold :=
  c.workers.flatMap (·.status.holds)

/-- How much all lanes count as waiting for the write side. -/
def weight (c : Crew) : Nat :=
  (c.workers.map (·.status.weight)).sum

/-- Each lane has its own number and the locks that its actions call for, the locks are taken by the
lanes that have them, and who waits for a lock has been refused since it was last called. -/
structure Sound (c : Crew) : Prop where
  nodup : (c.workers.map (·.lane.number)).Nodup
  isFit : ∀ w ∈ c.workers, w.IsFit
  accords : c.table.Accords c.holds c.weight
  heeds : ∀ w ∈ c.workers, w.status.Heeds c.table

variable {c c' : Crew} {i : Nat}

/-- A step changes one lane. -/
theorem exists_of_move? (h : c.move? i = some c') :
    ∃ pre w post later, c.workers = pre ++ w :: post ∧ pre.length = i ∧
      w.step? c.table = some (c'.table, later) ∧ c'.workers = pre ++ later :: post := by
  obtain ⟨w, hw, h⟩ := Option.bind_eq_some_iff.1 h
  obtain ⟨⟨table, later⟩, hstep, h⟩ := Option.bind_eq_some_iff.1 h
  obtain rfl := Option.some.inj h
  obtain ⟨hi, rfl⟩ := List.getElem?_eq_some_iff.1 hw
  obtain ⟨pre, post, hworkers, hlength, hset⟩ : ∃ pre post,
      c.workers = pre ++ c.workers[i] :: post ∧ pre.length = i ∧
        c.workers.set i later = pre ++ later :: post := List.exists_of_set hi
  exact ⟨pre, _, post, later, hworkers, hlength, hstep, hset⟩

/-- If one of the lanes has a step, the crew has a move. -/
theorem move?_isSome_of_step? {w : Worker} (hw : w ∈ c.workers)
    (hstep : (w.step? c.table).isSome) : ∃ i, (c.move? i).isSome := by
  obtain ⟨i, hi⟩ := List.getElem?_of_mem hw
  obtain ⟨next, hnext⟩ := Option.isSome_iff_exists.1 hstep
  exact ⟨i, by simp [move?, hi, hnext]⟩

/-- What the crew holds is what one lane and the others hold. -/
theorem holds_perm {w : Worker} {others : List Worker} (h : c.workers.Perm (w :: others)) :
    c.holds.Perm (w.status.holds ++ others.flatMap (·.status.holds)) :=
  h.flatMap_right _

/-- The lanes that wait for the write side are those among the others, and the one lane if it
does. -/
theorem weight_eq {w : Worker} {others : List Worker} (h : c.workers.Perm (w :: others)) :
    c.weight = (others.map (·.status.weight)).sum + w.status.weight := by
  rw [weight, (h.map _).sum_nat, List.map_cons, List.sum_cons, Nat.add_comm]

namespace Sound

/-- No step of a lane breaks it. -/
theorem move (h : c.Sound) (hmove : c.move? i = some c') : c'.Sound := by
  obtain ⟨pre, w, post, later, hworkers, -, hstep, hworkers'⟩ := exists_of_move? hmove
  have hperm : c.workers.Perm (w :: (pre ++ post)) := hworkers ▸ List.perm_middle
  have hperm' : c'.workers.Perm (later :: (pre ++ post)) := hworkers' ▸ List.perm_middle
  have hmem : w ∈ c.workers := hperm.mem_iff.2 List.mem_cons_self
  have hnodup := (hperm.map (·.lane.number)).nodup_iff.1 h.nodup
  have hothers : ∀ v ∈ pre ++ post, v ∈ c.workers ∧ v.lane.number ≠ w.lane.number := fun v hv =>
    ⟨hperm.mem_iff.2 (List.mem_cons_of_mem _ hv),
      fun heq => (List.nodup_cons.1 hnodup).1 (List.mem_map.2 ⟨v, hv, heq⟩)⟩
  obtain ⟨hlater, hnumber, hadvances⟩ := (h.isFit w hmem).of_step?_eq_some hstep
  refine ⟨?_, ?_, ?_, ?_⟩
  · rw [(hperm'.map _).nodup_iff, List.map_cons, hnumber]
    exact hnodup
  · intro v hv
    rcases List.mem_cons.1 (hperm'.mem_iff.1 hv) with rfl | hv
    · exact hlater
    · exact h.isFit v (hothers v hv).1
  · have haccords := h.accords.of_perm (holds_perm hperm)
    rw [weight_eq hperm] at haccords
    rw [weight_eq hperm']
    exact (haccords.advance hadvances).of_perm (holds_perm hperm').symm
  · intro v hv
    rcases List.mem_cons.1 (hperm'.mem_iff.1 hv) with rfl | hv
    · exact (h.heeds w hmem).advance hadvances
    · obtain ⟨hv, hne⟩ := hothers v hv
      refine (h.heeds v hv).keep fun owner access part quest hstatus => ?_
      have howner : v.status.IsOf v.lane.number := (h.isFit v hv).isOf
      rw [hstatus] at howner
      exact .of_advances hadvances (howner.symm ▸ hne) access part

/-- A move of the crew keeps it sound. A move that is not possible changes nothing. -/
theorem next (h : c.Sound) (i : Nat) : (c.next i).Sound := by
  rw [Crew.next]
  cases hmove : c.move? i with
  | none => exact h
  | some c' => exact h.move hmove

/-- Any sequence of moves keeps the crew sound. -/
theorem after (h : c.Sound) (moves : List Nat) : (c.after moves).Sound := by
  induction moves generalizing c with
  | nil => exact h
  | cons i moves ih => exact ih (h.next i)

end Sound

/-- A crew that has not begun is sound, whatever its jobs are. -/
theorem sound_ofJobs (jobs : List Job) : (ofJobs jobs).Sound := by
  have houtside : ∀ w ∈ (ofJobs jobs).workers, w.IsFit ∧ w.status = .outside := by
    intro w hw
    obtain ⟨i, hi, rfl⟩ := List.mem_mapIdx.1 hw
    exact ⟨.outside (jobs[i].bracketed_lane (i + 1)), rfl⟩
  refine ⟨?_, fun w hw => (houtside w hw).1, ?_, ?_⟩
  · refine List.pairwise_iff_getElem.2 fun i j hi hj hlt => ?_
    simp only [ofJobs, List.getElem_map, List.getElem_mapIdx, Job.lane]
    omega
  · have hholds : (ofJobs jobs).holds = [] :=
      List.flatMap_eq_nil_iff.2 fun w hw => by rw [(houtside w hw).2]; rfl
    have hweight : (ofJobs jobs).weight = 0 := by
      refine List.sum_eq_zero fun n hn => ?_
      obtain ⟨w, hw, rfl⟩ := List.mem_map.1 hn
      rw [(houtside w hw).2]
      rfl
    rw [hholds, hweight]
    exact LockTable.accords_free
  · intro w hw
    rw [(houtside w hw).2]
    trivial

/-- However the lanes of a crew have moved, the locks are what the lanes have made of them. -/
theorem sound_after (jobs : List Job) (moves : List Nat) : ((ofJobs jobs).after moves).Sound :=
  (sound_ofJobs jobs).after moves

end Crew

end PhasedBuild
