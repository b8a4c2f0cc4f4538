import Mathlib.Data.List.Perm.Basic
import PhasedBuild.Build.Run

/-!
# What one move does

`BuildRun.Advance` lists what a step of the coordinator can do to a build and `BuildRun.Step` what
any move can do, each case with the guard under which it happens and with all that it changes.

* `advance_or_idle`: when the coordinator has nothing to do.
* `step_next`: every move is one of the cases of `Step`.
* `after_induction`: what holds at first and is kept by every step holds after all moves.
-/

namespace PhasedBuild.BuildRun

/-- The coordinator goes from one position to another and changes nothing else. -/
inductive Onward (rules : BuildRules) (b : BuildRun) : Position → Prop
  | list (hposition : b.position = .listing) (hbusy : b.schedule.ready ≠ [] ∨ b.active ≠ []) :
    Onward rules b (.walking b.schedule.ready)
  | leave (hposition : b.position = .listing) (hready : b.schedule.ready = [])
    (hactive : b.active = []) : Onward rules b .ended
  | full {id : String} {rest : List String} (hposition : b.position = .walking (id :: rest))
    (hskip : b.status.skipReason? id = none) (hfull : rules.capacity ≤ b.occupied) :
    Onward rules b (.walking [])
  | await (hposition : b.position = .walking []) (hactive : b.active ≠ []) :
    Onward rules b .waiting
  | relist (hposition : b.position = .walking []) (hactive : b.active = []) :
    Onward rules b .listing

/-- A listed unit is brought to an end without being started; `plans` are left then. -/
inductive Refusal (b : BuildRun) (id : String) : Ending → UnitPlans → Prop
  | skip {reason : SkipReason} (hskip : b.status.skipReason? id = some reason) :
    Refusal b id (.skipped reason) b.plans
  | unplanned {error : BuildError} (hskip : b.status.skipReason? id = none)
    (hplan : b.plans.get id = .error error) :
    Refusal b id (.failed error 0 none) (Keyed.erase id b.plans)

/-- What a step of the coordinator does, unless it has nothing to do. -/
inductive Advance (rules : BuildRules) (b : BuildRun) : BuildRun → Prop
  | onward {position : Position} (h : Onward rules b position) :
    Advance rules b { b with position }
  | refuse {id : String} {rest : List String} {ending : Ending} {plans : UnitPlans}
    (hposition : b.position = .walking (id :: rest)) (h : Refusal b id ending plans) :
    Advance rules b { b.close rules id ending with plans, position := .walking rest }
  | start {id : String} {rest : List String} {plan : ExecutionPlan}
    (hposition : b.position = .walking (id :: rest)) (hskip : b.status.skipReason? id = none)
    (hplan : b.plans.get id = .ok plan) (hroom : b.occupied < rules.capacity) :
    Advance rules b { b.start rules id plan with position := .walking rest }
  | record {lane : Lane} {released : Bool} {delivered : List (Lane × Bool)}
    (hposition : b.position = .waiting) (hdelivered : b.delivered = (lane, released) :: delivered) :
    Advance rules b ({ b with delivered }.record rules lane)
  | enter {stage : Stage} {rest : List Stage} (hposition : b.position = .ended)
    (hrest : b.rest = stage :: rest) : Advance rules b (b.enter rules stage rest)

/-- What a move can do to a build. -/
inductive Step (rules : BuildRules) (b : BuildRun) : BuildRun → Prop
  | idle : Step rules b b
  | advance {b' : BuildRun} (h : Advance rules b b') : Step rules b b'
  | act {pre post : List Lane} {lane : Lane} {action : Action}
    (hworking : b.working = pre ++ lane :: post) (hnext : lane.next? = some action) :
    Step rules b { b.note lane.unit action with
      working := pre ++ { lane with done := lane.done + 1 } :: post }
  | deliver {pre post : List Lane} {lane : Lane} (hworking : b.working = pre ++ lane :: post)
    (hnext : lane.next? = none) (hroom : b.delivered.length < rules.capacity) :
    Step rules b { b with
      working := pre ++ post
      delivered := b.delivered ++ [(lane, false)] }
  | release {pre post : List (Lane × Bool)} {lane : Lane} {released : Bool}
    (hdelivered : b.delivered = pre ++ (lane, released) :: post) :
    Step rules b { b with delivered := pre ++ (lane, true) :: post }

variable {rules : BuildRules} {b : BuildRun}

/-! ### Every move is a step -/

/-- Whatever becomes of the unit to which the coordinator turns, that is a step of the
coordinator. -/
theorem advance_visit {id : String} {rest : List String}
    (hposition : b.position = .walking (id :: rest)) : Advance rules b (b.visit rules id rest) := by
  unfold visit
  split
  next reason hskip => exact .refuse hposition (.skip hskip)
  next hskip =>
    split
    next error hplan => exact .refuse hposition (.unplanned hskip hplan)
    next plan hplan =>
      split
      next hfull => exact .onward (.full hposition hskip hfull)
      next hroom => exact .start hposition hskip hplan (Nat.lt_of_not_le hroom)

/-- The coordinator has something to do unless the build is over or no result is there. -/
theorem advance_or_idle (rules : BuildRules) (b : BuildRun) :
    Advance rules b (b.coordinate rules) ∨
      b.coordinate rules = b ∧
        (b.isOver = true ∨ b.position = .waiting ∧ b.delivered = []) := by
  unfold coordinate
  split
  next hposition =>
    left
    split
    next hidle =>
      rw [Bool.and_eq_true, List.isEmpty_iff, List.isEmpty_iff] at hidle
      exact .onward (.leave hposition hidle.1 hidle.2)
    next hbusy =>
      rw [Bool.and_eq_true, List.isEmpty_iff, List.isEmpty_iff, not_and_or] at hbusy
      exact .onward (.list hposition hbusy)
  next id rest hposition => exact .inl (advance_visit hposition)
  next hposition =>
    left
    by_cases hactive : b.active = []
    · rw [if_pos (List.isEmpty_iff.2 hactive)]
      exact .onward (.relist hposition hactive)
    · rw [if_neg (by simpa using hactive)]
      exact .onward (.await hposition hactive)
  next hposition =>
    split
    next hdelivered => exact .inr ⟨rfl, .inr ⟨hposition, hdelivered⟩⟩
    next hdelivered => exact .inl (.record hposition hdelivered)
  next hposition =>
    split
    next hrest => exact .inr ⟨rfl, .inl (by simp [isOver, hposition, hrest])⟩
    next hrest => exact .inl (.enter hposition hrest)

/-- A move of the coordinator is a step, or it changes nothing. -/
theorem step_coordinate (rules : BuildRules) (b : BuildRun) :
    Step rules b (b.coordinate rules) := by
  rcases advance_or_idle rules b with hadvance | ⟨heq, -⟩
  · exact .advance hadvance
  · rw [heq]
    exact .idle

/-- A move of a lane is a step, or it changes nothing. -/
theorem step_work (rules : BuildRules) (b : BuildRun) (i : Nat) :
    Step rules b (b.work rules i) := by
  unfold work
  split
  next => exact .idle
  next lane hlane =>
    obtain ⟨hi, rfl⟩ := List.getElem?_eq_some_iff.1 hlane
    have hworking : b.working = b.working.take i ++ b.working[i] :: b.working.drop (i + 1) := by
      rw [List.getElem_cons_drop, List.take_append_drop]
    split
    next action hnext =>
      rw [List.set_eq_take_append_cons_drop, if_pos hi]
      exact .act hworking hnext
    next hnext =>
      split
      next hroom =>
        rw [List.eraseIdx_eq_take_drop_succ]
        exact .deliver hworking hnext hroom
      next => exact .idle

/-- Giving a place back is a step, or it changes nothing. -/
theorem step_release (rules : BuildRules) (b : BuildRun) (i : Nat) :
    Step rules b (b.release i) := by
  unfold release
  by_cases hi : i < b.delivered.length
  · obtain ⟨⟨lane, released⟩, hentry⟩ : ∃ entry, b.delivered[i] = entry := ⟨_, rfl⟩
    have hdelivered :
        b.delivered = b.delivered.take i ++ (lane, released) :: b.delivered.drop (i + 1) := by
      rw [← hentry, List.getElem_cons_drop, List.take_append_drop]
    rw [List.modify_eq_take_cons_drop hi, hentry]
    exact .release hdelivered
  · rw [List.modify_eq_self (Nat.le_of_not_lt hi)]
    exact .idle

/-- Every move is a step. -/
theorem step_next (rules : BuildRules) (b : BuildRun) (move : Move) :
    Step rules b (b.next rules move) := by
  cases move with
  | work i => exact step_work rules b i
  | release i => exact step_release rules b i
  | coordinate => exact step_coordinate rules b

/-- What is kept by every step is kept by moves. -/
theorem after_induction {P : BuildRun → Prop}
    (hstep : ∀ {b b' : BuildRun}, P b → Step rules b b' → P b') {b : BuildRun} (hb : P b)
    (moves : List Move) : P (b.after rules moves) := by
  induction moves generalizing b with
  | nil => exact hb
  | cons move moves ih => exact ih (hstep hb (step_next rules b move))

end PhasedBuild.BuildRun
