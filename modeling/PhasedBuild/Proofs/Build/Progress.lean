import Mathlib.Data.Nat.Find
import Mathlib.Data.Nat.Pairing
import Mathlib.Data.Prod.Lex
import Mathlib.Order.WellFounded
import PhasedBuild.Proofs.Build.Invariant

/-!
# Builds come to an end

A bound on what is left to do gets smaller with every move that changes the build: the steps that
the coordinator may still take (`BuildRun.turnsLeft`) and, between them, what the lanes have to do
(`BuildRun.lanesLeft`).

* `exists_later`: as long as the build is not over, some move brings it on.
* `exists_isOver_of_fair`: if no move is put off for ever, the build comes to its end, in whatever
  order the moves are made.
* `isOver_run`: driven at any pace, the build comes to its end within the allowed number of turns.
-/

namespace PhasedBuild

/-- How many steps the coordinator takes from a position at most before it has to wait for a lane,
to turn to another unit, or to turn to another stage. -/
def Position.weight (active : Nat) : Position → Nat
  | .listing => 4
  | .walking (_ :: _) => 3
  | .walking [] => if active = 0 then 5 else 2
  | .waiting => 1
  | .ended => 0

/-- While the coordinator goes through a list it takes five steps at most before it has to do
something else. -/
theorem Position.weight_walking_le (active : Nat) (listed : List String) :
    (Position.walking listed).weight active ≤ 5 := by
  cases listed with
  | nil =>
    rw [weight]
    split <;> omega
  | cons _ _ => simp [weight]

/-- With a lane that is active it takes three at most, as it need not end the stage. -/
theorem Position.weight_walking_succ_le (active : Nat) (listed : List String) :
    (Position.walking listed).weight (active + 1) ≤ 3 := by
  cases listed <;> simp [weight]

namespace BuildRun

/-- A bound on the number of steps that the coordinator still takes. -/
def turnsLeft (b : BuildRun) : Nat :=
  maxTurns b.rest + 5 * b.schedule.pendingIds.length + 4 * b.active.length +
    b.position.weight b.active.length

/-- The number of moves that lanes make until they have given their places back. -/
def movesLeft : List Lane → Nat
  | [] => 0
  | lane :: rest => lane.work.actions.length - lane.done + 2 + movesLeft rest

/-- The moves that two groups of lanes make are those of each of them. -/
theorem movesLeft_append (lanes others : List Lane) :
    movesLeft (lanes ++ others) = movesLeft lanes + movesLeft others := by
  induction lanes with
  | nil => rw [List.nil_append, movesLeft, Nat.zero_add]
  | cons lane rest ih =>
    rw [List.cons_append, movesLeft, movesLeft, ih]
    omega

/-- The number of moves that lanes can make before the coordinator goes on. -/
def lanesLeft (b : BuildRun) : Nat :=
  movesLeft b.working + b.delivered.countP (!·.2)

/-- One build is ahead of another. -/
def Later (b' b : BuildRun) : Prop :=
  Prod.Lex (· < ·) (· < ·) (b'.turnsLeft, b'.lanesLeft) (b.turnsLeft, b.lanesLeft)

/-- A build is not ahead of itself. -/
theorem Later.ne {b' b : BuildRun} (h : Later b' b) : b' ≠ b := by
  rintro rfl
  rcases Prod.lex_def.1 h with hlt | ⟨-, hlt⟩
  · exact Nat.lt_irrefl _ hlt
  · exact Nat.lt_irrefl _ hlt

/-- A build that is ahead of another has at most as many steps of the coordinator to come. -/
theorem Later.turnsLeft_le {b' b : BuildRun} (h : Later b' b) : b'.turnsLeft ≤ b.turnsLeft := by
  rcases Prod.lex_def.1 h with hlt | ⟨heq, -⟩
  · exact Nat.le_of_lt hlt
  · exact Nat.le_of_eq heq

variable {rules : BuildRules} {stages : List Stage} {b b' : BuildRun}

/-! ### Every change brings the build on -/

/-- If a place is taken, a lane is active. -/
theorem active_ne_nil_of_occupied (h : 0 < b.occupied) : b.active ≠ [] := by
  intro hnil
  rw [active, List.append_eq_nil_iff, List.map_eq_nil_iff] at hnil
  simp [occupied, hnil.1, hnil.2] at h

/-- Going on from one position to another takes the coordinator nearer to the end of the stage. -/
theorem turnsLeft_onward {position : Position} (h : Onward rules b position) :
    { b with position }.turnsLeft < b.turnsLeft := by
  have hweight : position.weight b.active.length < b.position.weight b.active.length := by
    cases h with
    | list hposition hbusy =>
      rw [hposition]
      cases hready : b.schedule.ready with
      | cons _ _ => simp [Position.weight]
      | nil =>
        have hactive : b.active ≠ [] := hbusy.resolve_left (not_not_intro hready)
        simp [Position.weight, hactive]
    | leave hposition _ _ => simp [hposition, Position.weight]
    | full hposition _ hfull =>
      have hactive := active_ne_nil_of_occupied (Nat.lt_of_lt_of_le rules.capacity_pos hfull)
      simp [hposition, Position.weight, hactive]
    | await hposition hactive => simp [hposition, Position.weight, hactive]
    | relist hposition hactive => simp [hposition, Position.weight, hactive]
  exact Nat.add_lt_add_left hweight _

/-- Every step of the coordinator that does something brings the build on. -/
theorem Sound.turnsLeft_advance (h : b.Sound rules stages) (hstep : Advance rules b b') :
    b'.turnsLeft < b.turnsLeft := by
  cases hstep with
  | onward hstep => exact turnsLeft_onward hstep
  | @refuse id rest ending plans hposition _ =>
    have hlen := (h.pendingIds_perm_mark hposition ending.status_ne_pending).length_eq
    have hbefore : b.position.weight b.active.length = 3 := by rw [hposition]; rfl
    have hafter := Position.weight_walking_le b.active.length rest
    rw [List.length_cons] at hlen
    show maxTurns b.rest + 5 * (b.schedule.mark id ending.status).pendingIds.length +
      4 * b.active.length + (Position.walking rest).weight b.active.length < b.turnsLeft
    rw [turnsLeft, hlen, hbefore]
    omega
  | @start id rest plan hposition _ _ _ =>
    have hlen := (h.pendingIds_perm_mark hposition UnitStatus.running_ne_pending).length_eq
    have hactive := (active_start_perm rules b id plan).length_eq
    have hbefore : b.position.weight b.active.length = 3 := by rw [hposition]; rfl
    have hafter := Position.weight_walking_succ_le b.active.length rest
    rw [List.length_cons] at hlen hactive
    show maxTurns b.rest + 5 * (b.schedule.mark id .running).pendingIds.length +
      4 * (b.start rules id plan).active.length +
      (Position.walking rest).weight (b.start rules id plan).active.length < b.turnsLeft
    rw [turnsLeft, hlen, hactive, hbefore]
    omega
  | @record lane _ delivered hposition hdelivered =>
    have hlen := (active_perm_of_delivered hdelivered).length_eq
    have hbefore : b.position.weight b.active.length = 1 := by rw [hposition]; rfl
    rw [List.length_cons] at hlen
    show maxTurns b.rest +
      5 * (b.schedule.mark lane.unit lane.ending.status).pendingIds.length +
      4 * ({ b with delivered } : BuildRun).active.length + 4 < b.turnsLeft
    rw [turnsLeft, h.pendingIds_mark_of_delivered hdelivered, hbefore, hlen]
    omega
  | @enter stage rest hposition hrest =>
    obtain ⟨hactive, hpending⟩ := h.ended hposition
    show maxTurns rest + 5 * (Schedule.ofMembers rules.units stage.members).pendingIds.length +
      4 * b.active.length + 4 < b.turnsLeft
    rw [turnsLeft, hposition, hpending, hactive, hrest, Schedule.pendingIds_ofMembers]
    simp only [Position.weight, maxTurns, List.length_map, List.length_nil]
    omega

/-- What lanes do leaves the coordinator as much to do as before. -/
theorem turnsLeft_of_lanes (hrest : b'.rest = b.rest) (hschedule : b'.schedule = b.schedule)
    (hposition : b'.position = b.position) (hactive : b'.active.length = b.active.length) :
    b'.turnsLeft = b.turnsLeft := by
  rw [turnsLeft, hrest, hschedule, hposition, hactive, turnsLeft]

/-- Every step that changes a build brings it on. -/
theorem Sound.later_of_step (h : b.Sound rules stages) (hstep : Step rules b b') :
    b' = b ∨ Later b' b := by
  cases hstep with
  | idle => exact .inl rfl
  | advance hstep => exact .inr (.left _ _ (h.turnsLeft_advance hstep))
  | @act pre post lane action hworking hnext =>
    have hdone := (List.getElem?_eq_some_iff.1 hnext).1
    refine .inr (Prod.lex_def.2 (.inr ⟨?_, ?_⟩))
    · refine turnsLeft_of_lanes rfl rfl rfl ?_
      simp [active, note, hworking]
    · simp only [lanesLeft, note, hworking, movesLeft_append, movesLeft]
      omega
  | @deliver pre post lane hworking hnext _ =>
    refine .inr (Prod.lex_def.2 (.inr ⟨?_, ?_⟩))
    · exact turnsLeft_of_lanes rfl rfl rfl (active_perm_of_working hworking).length_eq.symm
    · simp only [lanesLeft, hworking, movesLeft_append, movesLeft, List.countP_append,
        List.countP_singleton, Bool.not_false, if_true]
      omega
  | @release pre post lane released hdelivered =>
    cases released with
    | true =>
      left
      rw [← hdelivered]
    | false =>
      refine .inr (Prod.lex_def.2 (.inr ⟨?_, ?_⟩))
      · refine turnsLeft_of_lanes rfl rfl rfl ?_
        simp [active, hdelivered]
      · simp [lanesLeft, hdelivered]

/-! ### Some move brings the build on -/

/-- If the first lane at work has something to do, it does that. -/
theorem next_work_of_act {lane : Lane} {post : List Lane} {action : Action}
    (hworking : b.working = lane :: post) (hnext : lane.next? = some action) :
    b.next rules (.work 0) = { b.note lane.unit action with
      working := { lane with done := lane.done + 1 } :: post } := by
  simp [next, work, hworking, hnext]

/-- If the first lane at work has done everything, it delivers its result. -/
theorem next_work_of_deliver {lane : Lane} {post : List Lane} (hworking : b.working = lane :: post)
    (hnext : lane.next? = none) (hdelivered : b.delivered = []) :
    b.next rules (.work 0) = { b with working := post, delivered := [(lane, false)] } := by
  simp [next, work, hworking, hnext, hdelivered, rules.capacity_pos]

/-- While the coordinator waits and nothing has been delivered, a lane works. -/
theorem Sound.exists_working (h : b.Sound rules stages) (hposition : b.position = .waiting)
    (hdelivered : b.delivered = []) : ∃ lane post, b.working = lane :: post := by
  have hactive := h.busy hposition
  rw [active, hdelivered, List.map_nil, List.append_nil] at hactive
  exact List.exists_cons_of_ne_nil hactive

/-- As long as the build is not over, some move brings it on. -/
theorem Sound.exists_later (h : b.Sound rules stages) (hover : b.isOver ≠ true) :
    ∃ move, Later (b.next rules move) b := by
  rcases advance_or_idle rules b with hadvance | ⟨-, hover' | ⟨hposition, hdelivered⟩⟩
  · exact ⟨.coordinate, .left _ _ (h.turnsLeft_advance hadvance)⟩
  · exact absurd hover' hover
  · obtain ⟨lane, post, hworking⟩ := h.exists_working hposition hdelivered
    refine ⟨.work 0, (h.later_of_step (step_next rules b _)).resolve_left ?_⟩
    intro heq
    -- the lane acts, and the trace grows, or it delivers into the empty queue
    cases hnext : lane.next? with
    | some action =>
      rw [next_work_of_act hworking hnext] at heq
      have htrace := congrArg (·.trace.length) heq
      simp [note] at htrace
    | none =>
      rw [next_work_of_deliver hworking hnext hdelivered] at heq
      have hqueue := congrArg (·.delivered.length) heq
      simp [hdelivered] at hqueue

/-- No move is put off for ever. -/
def Fair (path : Nat → Move) : Prop :=
  ∀ move n, ∃ k, n ≤ k ∧ path k = move

/-- Moves can be made so that none is put off for ever. -/
theorem exists_fair : ∃ path, Fair path := by
  let move (code : Nat) : Move :=
    if code % 3 = 0 then .coordinate
    else if code % 3 = 1 then .work (code / 3) else .release (code / 3)
  have hmove : ∀ m : Move, ∃ code, move code = m := by
    intro m
    cases m with
    | coordinate => exact ⟨0, rfl⟩
    | work i => exact ⟨3 * i + 1, by simp [move, Nat.mul_add_div]⟩
    | release i => exact ⟨3 * i + 2, by simp [move, Nat.mul_add_div]⟩
  refine ⟨fun n => move n.unpair.1, fun m n => ?_⟩
  obtain ⟨code, hcode⟩ := hmove m
  refine ⟨Nat.pair code n, Nat.right_le_pair code n, ?_⟩
  simp only [Nat.unpair_pair, hcode]

/-- What is fair stays fair when some moves have been made. -/
theorem Fair.drop {path : Nat → Move} (h : Fair path) (m : Nat) : Fair fun n => path (m + n) := by
  intro move n
  obtain ⟨k, hk, hmove⟩ := h move (m + n)
  refine ⟨k - m, by omega, ?_⟩
  rw [← hmove]
  exact congrArg path (by omega)

/-- The first moves of a path. -/
def taken (path : Nat → Move) (n : Nat) : List Move :=
  (List.range n).map path

/-- One more move of a path comes last. -/
theorem taken_succ (path : Nat → Move) (n : Nat) :
    taken path (n + 1) = taken path n ++ [path n] := by
  simp [taken, List.range_succ]

/-- The first moves of a path may be taken in two parts. -/
theorem taken_add (path : Nat → Move) (m n : Nat) :
    taken path (m + n) = taken path m ++ taken (fun i => path (m + i)) n := by
  simp [taken, List.range_add, Function.comp_def]

/-- A fair path makes, after some moves that change nothing, one that brings the build on. -/
theorem Sound.exists_taken_later (h : b.Sound rules stages) (hover : b.isOver ≠ true)
    {path : Nat → Move} (hfair : Fair path) : ∃ n, Later (b.after rules (taken path n)) b := by
  obtain ⟨move, hmove⟩ := h.exists_later hover
  have hchange : ∃ n, b.next rules (path n) ≠ b := by
    obtain ⟨k, -, rfl⟩ := hfair move 0
    exact ⟨k, hmove.ne⟩
  classical
  have hidle : ∀ n ≤ Nat.find hchange, b.after rules (taken path n) = b := by
    intro n hn
    induction n with
    | zero => rfl
    | succ n ih =>
      rw [taken_succ, after_append, ih (Nat.le_of_succ_le hn)]
      exact not_not.1 (Nat.find_min hchange hn)
  refine ⟨Nat.find hchange + 1, ?_⟩
  rw [taken_succ, after_append, hidle _ (Nat.le_refl _)]
  exact (h.later_of_step (step_next rules b _)).resolve_left (Nat.find_spec hchange)

/-- If no move is put off for ever, the build comes to its end. -/
theorem Sound.exists_isOver_of_fair (hlineup : Lineup rules.units stages)
    (h : b.Sound rules stages) {path : Nat → Move} (hfair : Fair path) :
    ∃ n, (b.after rules (taken path n)).isOver = true := by
  have hwf : WellFounded Later :=
    InvImage.wf (fun b : BuildRun => (b.turnsLeft, b.lanesLeft))
      (WellFounded.prod_lex Nat.lt_wfRel.wf Nat.lt_wfRel.wf)
  induction b using hwf.induction generalizing path with
  | _ b ih =>
    by_cases hover : b.isOver = true
    · exact ⟨0, hover⟩
    · obtain ⟨m, hlater⟩ := h.exists_taken_later hover hfair
      obtain ⟨n, hn⟩ := ih _ hlater (h.after hlineup _) (hfair.drop m)
      refine ⟨m + n, ?_⟩
      rw [taken_add, after_append]
      exact hn

/-! ### Driving a build -/

/-- No moves take a build back. -/
theorem Sound.turnsLeft_after_le (hlineup : Lineup rules.units stages) (h : b.Sound rules stages)
    (moves : List Move) : (b.after rules moves).turnsLeft ≤ b.turnsLeft := by
  induction moves generalizing b with
  | nil => exact Nat.le_refl _
  | cons move moves ih =>
    have hstep := step_next rules b move
    refine Nat.le_trans (ih (h.step hlineup hstep)) ?_
    rcases h.later_of_step hstep with heq | hlater
    · rw [heq]
    · exact hlater.turnsLeft_le

/-- A lane that goes on often enough delivers. -/
theorem delivered_after_replicate {lane : Lane} {post : List Lane} {n : Nat}
    (hworking : b.working = lane :: post) (hdelivered : b.delivered = [])
    (hn : lane.work.actions.length - lane.done = n) :
    (b.after rules (.replicate (n + 1) (.work 0))).delivered ≠ [] := by
  induction n generalizing b lane with
  | zero =>
    have hnext : lane.next? = none := List.getElem?_eq_none (by omega)
    show (b.next rules (.work 0)).delivered ≠ []
    rw [next_work_of_deliver hworking hnext hdelivered]
    exact List.cons_ne_nil _ _
  | succ n ih =>
    have hlt : lane.done < lane.work.actions.length := by omega
    have hnext : lane.next? = some lane.work.actions[lane.done] := List.getElem?_eq_getElem hlt
    rw [List.replicate_succ, after_cons, next_work_of_act hworking hnext]
    have hleft : lane.work.actions.length - (lane.done + 1) = n := by omega
    refine ih (rfl : _ = { lane with done := lane.done + 1 } :: post) hdelivered hleft

/-- After the urging the coordinator does not wait for nothing. -/
theorem Sound.delivered_after_urging (h : b.Sound rules stages)
    (hposition : (b.after rules b.urging).position = .waiting) :
    (b.after rules b.urging).delivered ≠ [] := by
  by_cases hidle : b.position = .waiting ∧ b.delivered = []
  · obtain ⟨lane, post, hworking⟩ := h.exists_working hidle.1 hidle.2
    have hurging : b.urging =
        .replicate (lane.work.actions.length - lane.done + 1) (.work 0) := by
      simp [urging, hidle, hworking]
    rw [hurging]
    exact delivered_after_replicate hworking hidle.2 rfl
  · have hurging : b.urging = [] := by
      unfold urging
      split
      next hwaiting hnone _ => exact absurd ⟨hwaiting, hnone⟩ hidle
      next => rfl
    rw [hurging, after_nil] at hposition ⊢
    exact fun hnone => hidle ⟨hposition, hnone⟩

/-- A turn ends the build or brings the coordinator on. -/
theorem Sound.turnsLeft_turn (hlineup : Lineup rules.units stages) (h : b.Sound rules stages)
    (moves : List Move) : (b.turn rules moves).isOver = true ∨
      (b.turn rules moves).turnsLeft < b.turnsLeft := by
  have hmoved := h.after hlineup moves
  have hurged := hmoved.after hlineup (b.after rules moves).urging
  have hle := Nat.le_trans (hmoved.turnsLeft_after_le hlineup (b.after rules moves).urging)
    (h.turnsLeft_after_le hlineup moves)
  show (((b.after rules moves).after rules (b.after rules moves).urging).coordinate rules).isOver =
    true ∨ _
  rcases advance_or_idle rules ((b.after rules moves).after rules (b.after rules moves).urging) with
    hadvance | ⟨heq, hover | ⟨hposition, hdelivered⟩⟩
  · exact .inr (Nat.lt_of_lt_of_le (hurged.turnsLeft_advance hadvance) hle)
  · rw [heq]
    exact .inl hover
  · exact absurd hdelivered (hmoved.delivered_after_urging hposition)

/-- A turn of the coordinator and what lanes do meanwhile are moves of a build. -/
theorem turn_eq_after (rules : BuildRules) (b : BuildRun) (moves : List Move) :
    ∃ all, b.turn rules moves = b.after rules all :=
  ⟨moves ++ ((b.after rules moves).urging ++ [.coordinate]), by
    rw [after_append, after_append]
    rfl⟩

/-- A driven build is one that some moves lead to. -/
theorem run_eq_after (rules : BuildRules) (pace : Pace) (n : Nat) (b : BuildRun) :
    ∃ moves, b.run rules pace n = b.after rules moves := by
  induction n generalizing pace b with
  | zero => exact ⟨[], rfl⟩
  | succ n ih =>
    unfold run
    split
    · exact ⟨[], rfl⟩
    · obtain ⟨first, hfirst⟩ := turn_eq_after rules b (pace 0)
      obtain ⟨moves, hmoves⟩ := ih (fun moment => pace (moment + 1)) (b.turn rules (pace 0))
      refine ⟨first ++ moves, ?_⟩
      rw [hmoves, hfirst, after_append]

/-- A build that is over stays as it is. -/
theorem run_of_isOver (hover : b.isOver = true) (pace : Pace) (n : Nat) :
    b.run rules pace n = b := by
  cases n with
  | zero => rfl
  | succ n => rw [run, if_pos hover]

/-- When the coordinator has no steps left, the build is over. -/
theorem isOver_of_turnsLeft_eq_zero (h : b.turnsLeft = 0) : b.isOver = true := by
  rw [turnsLeft, Nat.add_eq_zero_iff, Nat.add_eq_zero_iff, Nat.add_eq_zero_iff] at h
  obtain ⟨⟨⟨hrest, -⟩, -⟩, hweight⟩ := h
  have hended : b.position = .ended := by
    generalize b.position = position at hweight ⊢
    unfold Position.weight at hweight
    split at hweight
    next => cases hweight
    next => cases hweight
    next => split at hweight <;> cases hweight
    next => cases hweight
    next => rfl
  have hnone : b.rest = [] := by
    cases hstages : b.rest with
    | nil => rfl
    | cons stage rest => simp [hstages, maxTurns] at hrest
  simp [isOver, hended, hnone]

/-- A build that is driven for long enough comes to its end. -/
theorem Sound.isOver_run (hlineup : Lineup rules.units stages) (h : b.Sound rules stages)
    (pace : Pace) {n : Nat} (hn : b.turnsLeft ≤ n) : (b.run rules pace n).isOver = true := by
  induction n generalizing pace b with
  | zero => exact isOver_of_turnsLeft_eq_zero (Nat.le_zero.1 hn)
  | succ n ih =>
    unfold run
    split
    next hover => exact hover
    next =>
      have hturn : (b.turn rules (pace 0)).Sound rules stages := by
        obtain ⟨all, hall⟩ := turn_eq_after rules b (pace 0)
        rw [hall]
        exact h.after hlineup all
      rcases h.turnsLeft_turn hlineup (pace 0) with hover | hlt
      · rw [run_of_isOver hover]
        exact hover
      · exact ih hturn _ (by omega)

end BuildRun

/-- A build of segments that is driven at some pace has made some moves, and it is over. -/
theorem Session.exists_buildSegments_eq (s : Session) (work : Work) (pace : BuildRun.Pace)
    (segments : List Segment) : ∃ moves,
      s.buildSegments work pace segments = s.buildAfter work segments moves ∧
        (s.buildAfter work segments moves).isOver = true := by
  obtain ⟨moves, hmoves⟩ := BuildRun.run_eq_after (s.rules work) pace
    (BuildRun.maxTurns (s.start segments).rest) (s.start segments)
  refine ⟨moves, hmoves, ?_⟩
  rw [buildAfter, ← hmoves]
  exact (s.sound_start work segments).isOver_run (s.lineup segments) pace (Nat.le_refl _)

end PhasedBuild
