import Mathlib.Data.List.Count
import PhasedBuild.Proofs.Build.Invariant

/-!
# What becomes of every unit

At each moment of a build the units that take part in its segments fall into three groups: those
that have a result, those that a lane is active on, and those that are outstanding. Steps move
units from one group to another, and no unit is lost or counted twice.

* `Sound.outstanding_perm_mark`, `Sound.outstanding_record` and `Sound.outstanding_enter`: which
  steps change what is outstanding, and how.
* `Accounted`: the three groups together are all units of all segments, and the trace tells of the
  same endings as the summary (`Accounted.after`).
-/

namespace PhasedBuild

/-- A unit in a segment, which a result is about. -/
def UnitResult.key (r : UnitResult) : String × Nat :=
  (r.unit, r.segment)

/-- The outcome that a change of a unit tells of, if the unit has come to its end. -/
def UnitChange.outcome? : UnitChange → Option UnitOutcome
  | .started => none
  | .succeeded => some .success
  | .failed _ => some .failed
  | .skipped _ => some .skipped

/-- The unit in a segment that an action reports the end of, and the outcome. -/
def Action.ending? : Action → Option ((String × Nat) × UnitOutcome)
  | .reported (.ofUnit unit segment change) => change.outcome?.map ((unit, segment), ·)
  | _ => none

/-- The change that an ending reports tells of its outcome. -/
@[simp] theorem Ending.outcome?_change (ending : Ending) :
    ending.change.outcome? = some ending.outcome := by
  cases ending <;> rfl

/-- Nothing that is done inside the build of a unit is reported as its end. -/
theorem Action.ending?_of_isInner {action : Action} (h : action.isInner = true) :
    action.ending? = none := by
  cases action with
  | reported event =>
    cases event with
    | ofUnit _ _ _ => cases h
    | _ => rfl
  | _ => rfl

/-- Whatever a lane does belongs to the inside of the build of its unit. -/
theorem Lane.isInner_of_next? {lane : Lane} {action : Action} (h : lane.next? = some action) :
    action.isInner = true :=
  lane.work.isInner_of_mem action (List.mem_of_getElem? h)

/-- The counts of a summary are the numbers of its results. -/
structure BuildSummary.Counted (s : BuildSummary) : Prop where
  total : s.total = s.results.length
  succeeded : s.succeeded = s.results.countP (·.outcome = .success)
  failed : s.failed = s.results.countP (·.outcome = .failed)
  skipped : s.skipped = s.results.countP (·.outcome = .skipped)

namespace BuildSummary

/-- A summary whose counts are right has right counts with one more result. -/
theorem Counted.add {s : BuildSummary} (h : s.Counted) (result : UnitResult) :
    (s.add result).Counted where
  total := by simp [BuildSummary.add, h.total]
  succeeded := by simp [BuildSummary.add, h.succeeded, List.countP_append]
  failed := by simp [BuildSummary.add, h.failed, List.countP_append]
  skipped := by simp [BuildSummary.add, h.skipped, List.countP_append]

/-- In a summary whose counts are right each result has been counted under its outcome. -/
theorem Counted.sum_eq {s : BuildSummary} (h : s.Counted) :
    s.succeeded + s.failed + s.skipped = s.total := by
  rw [h.succeeded, h.failed, h.skipped, h.total]
  generalize s.results = results
  induction results with
  | nil => rfl
  | cons result rest ih =>
    simp only [List.countP_cons, List.length_cons]
    cases result.outcome <;> simp <;> omega

end BuildSummary

namespace BuildRun

variable {rules : BuildRules} {stages : List Stage} {b b' : BuildRun}

/-! ### The three groups -/

/-- The units that have a result, each with the segment. -/
def settled (b : BuildRun) : List (String × Nat) :=
  b.summary.results.map (·.key)

/-- The units that a lane is active on. -/
def underway (b : BuildRun) : List (String × Nat) :=
  b.active.map fun lane => (lane.unit, b.stage.position)

/-- The units that have been neither started nor refused. -/
def outstanding (b : BuildRun) : List (String × Nat) :=
  b.schedule.pendingIds.map (·, b.stage.position) ++ b.rest.flatMap Stage.pairs

/-- The endings that the trace tells of, in order. -/
def endings (b : BuildRun) : List ((String × Nat) × UnitOutcome) :=
  b.trace.filterMap (·.action.ending?)

/-- A unit that the coordinator turns to is not outstanding any more once its status changes. -/
theorem Sound.outstanding_perm_mark (h : b.Sound rules stages) {id : String} {rest : List String}
    (hposition : b.position = .walking (id :: rest)) {status : UnitStatus}
    (hstatus : status ≠ .pending) : b.outstanding.Perm ((id, b.stage.position) ::
      ((b.schedule.mark id status).pendingIds.map (·, b.stage.position) ++
        b.rest.flatMap Stage.pairs)) := by
  have hperm := h.pendingIds_perm_mark hposition hstatus
  exact (hperm.map (·, b.stage.position)).append_right _

/-- A result of a lane leaves what is outstanding as it is. -/
theorem Sound.outstanding_record (h : b.Sound rules stages) {lane : Lane} {released : Bool}
    {delivered : List (Lane × Bool)} (hdelivered : b.delivered = (lane, released) :: delivered) :
    ({ b with delivered }.record rules lane).outstanding = b.outstanding := by
  unfold outstanding
  rw [← h.pendingIds_mark_of_delivered hdelivered]
  rfl

/-- Turning to the next stage leaves what is outstanding as it is. -/
theorem Sound.outstanding_enter (h : b.Sound rules stages) {stage : Stage} {rest : List Stage}
    (hposition : b.position = .ended) (hrest : b.rest = stage :: rest) :
    (b.enter rules stage rest).outstanding = b.outstanding := by
  simp [outstanding, BuildRun.enter, (h.ended hposition).2, hrest, Stage.pairs, Stage.ids]

/-! ### Results that are due -/

/-- The results that a build has, those that its active lanes come to, and other ones. -/
def resultsWith (b : BuildRun) (others : List UnitResult) : List UnitResult :=
  b.summary.results ++
    (b.active.map (fun lane => lane.ending.result lane.unit b.stage.position) ++ others)

/-- The order of the other results does not matter. -/
theorem resultsWith_perm {others others' : List UnitResult} (h : others.Perm others') :
    (b.resultsWith others).Perm (b.resultsWith others') :=
  (h.append_left _).append_left _

/-- A refused unit gets the result that was due to it. -/
theorem resultsWith_refuse {id : String} {ending : Ending} (plans : UnitPlans)
    (position : Position) {others others' : List UnitResult}
    (h : others.Perm (ending.result id b.stage.position :: others')) :
    (resultsWith { b.close rules id ending with plans, position } others').Perm
      (b.resultsWith others) := by
  refine .trans ?_ (resultsWith_perm h).symm
  have hresults : (b.close rules id ending).summary.results =
      b.summary.results ++ [ending.result id b.stage.position] := rfl
  unfold resultsWith
  rw [hresults, List.append_assoc]
  refine .append_left _ ?_
  show (ending.result id b.stage.position :: (b.active.map (fun lane =>
    lane.ending.result lane.unit b.stage.position) ++ others')).Perm _
  exact List.perm_middle.symm

/-- What a started lane comes to is due instead of another result for its unit. -/
theorem resultsWith_start {id : String} (plan : ExecutionPlan) (position : Position)
    {others others' : List UnitResult}
    (h : others.Perm ((b.laneFor rules id plan).ending.result id b.stage.position :: others')) :
    (resultsWith { b.start rules id plan with position } others').Perm (b.resultsWith others) := by
  have hactive := (active_start_perm rules b id plan).map
    fun lane => lane.ending.result lane.unit b.stage.position
  refine .trans ?_ (resultsWith_perm h).symm
  refine .append_left _ ?_
  exact (hactive.append_right _).trans List.perm_middle.symm

/-- A delivered result is recorded as it was due. -/
theorem resultsWith_record {lane : Lane} {released : Bool} {delivered : List (Lane × Bool)}
    (hdelivered : b.delivered = (lane, released) :: delivered) (others : List UnitResult) :
    (({ b with delivered }.record rules lane).resultsWith others).Perm (b.resultsWith others) := by
  have hactive := (active_perm_of_delivered hdelivered).map
    fun lane => lane.ending.result lane.unit b.stage.position
  refine .trans (.of_eq ?_) ((hactive.append_right _).append_left _).symm
  exact List.append_assoc _ _ _

/-- Turning to a stage leaves no result due but the other ones. -/
theorem Sound.resultsWith_enter (h : b.Sound rules stages) (hposition : b.position = .ended)
    (stage : Stage) (rest : List Stage) (others : List UnitResult) :
    (b.enter rules stage rest).resultsWith others = b.resultsWith others := by
  have hactive := (h.ended hposition).1
  have hactive' : (b.enter rules stage rest).active = [] := hactive
  rw [resultsWith, hactive', resultsWith, hactive]
  rfl

/-- What lanes do does not change what they come to. -/
theorem resultsWith_act {pre post : List Lane} {lane : Lane} (action : Action)
    (hworking : b.working = pre ++ lane :: post) (others : List UnitResult) :
    resultsWith { b.note lane.unit action with
      working := pre ++ { lane with done := lane.done + 1 } :: post } others =
      b.resultsWith others := by
  simp [resultsWith, active, note, hworking, Lane.ending, Lane.steps]

/-- A lane that has delivered its result but not given its place back counts with the result that it
comes to. -/
theorem resultsWith_deliver {pre post : List Lane} {lane : Lane}
    (hworking : b.working = pre ++ lane :: post) (others : List UnitResult) :
    (resultsWith { b with
      working := pre ++ post
      delivered := b.delivered ++ [(lane, false)] } others).Perm (b.resultsWith others) :=
  (((active_perm_of_working hworking).symm.map _).append_right _).append_left _

/-- A lane that gives its place back comes to the result that it came to. -/
theorem resultsWith_release {pre post : List (Lane × Bool)} {lane : Lane} {released : Bool}
    (hdelivered : b.delivered = pre ++ (lane, released) :: post) (others : List UnitResult) :
    resultsWith { b with delivered := pre ++ (lane, true) :: post } others =
      b.resultsWith others := by
  simp [resultsWith, active, hdelivered]

/-! ### The account -/

/-- Every unit of every segment is in one of the three groups, and results and trace agree. -/
structure Accounted (stages : List Stage) (b : BuildRun) : Prop where
  perm : (b.settled ++ (b.underway ++ b.outstanding)).Perm (stages.flatMap Stage.pairs)
  endings_eq : b.endings = b.summary.results.map fun r => (r.key, r.outcome)
  counted : b.summary.Counted

namespace Accounted

/-- What neither adds results nor reports endings keeps the account, if it keeps the other two
groups together. -/
theorem of_perm (h : b.Accounted stages) (hsummary : b'.summary = b.summary)
    (hendings : b'.endings = b.endings)
    (hperm : (b.underway ++ b.outstanding).Perm (b'.underway ++ b'.outstanding)) :
    b'.Accounted stages where
  perm := by
    have hsettled : b'.settled = b.settled := by rw [settled, hsummary, settled]
    rw [hsettled]
    exact (hperm.append_left _).symm.trans h.perm
  endings_eq := by rw [hendings, hsummary, h.endings_eq]
  counted := hsummary ▸ h.counted

/-- Closing a unit keeps the account, if the unit leaves the other two groups. -/
theorem of_close (h : b.Accounted stages) {id : String} {ending : Ending}
    (hsummary : b'.summary = b.summary.add (ending.result id b.stage.position))
    (htrace : b'.trace = (b.note id (.reported (.ofUnit id b.stage.position ending.change))).trace)
    (hperm : (b.underway ++ b.outstanding).Perm
      ((id, b.stage.position) :: (b'.underway ++ b'.outstanding))) : b'.Accounted stages where
  perm := by
    have hsettled : b'.settled = b.settled ++ [(id, b.stage.position)] := by
      simp [settled, hsummary, BuildSummary.add, UnitResult.key]
    rw [hsettled, List.append_assoc]
    exact (hperm.append_left _).symm.trans h.perm
  endings_eq := by
    have hold := h.endings_eq
    unfold endings at hold ⊢
    rw [htrace, hsummary, note, List.filterMap_append, hold]
    simp [BuildSummary.add, Action.ending?, UnitResult.key]
  counted := hsummary ▸ h.counted.add _

/-- Every step of the coordinator keeps the account: a unit moves from one group to the next, and
its end is reported as its result is recorded. -/
theorem advance (hb : b.Sound rules stages) (h : b.Accounted stages)
    (hstep : Advance rules b b') : b'.Accounted stages := by
  cases hstep with
  | onward _ => exact h.of_perm rfl rfl (.refl _)
  | @refuse id rest ending plans hposition _ =>
    refine h.of_close rfl rfl ?_
    have hperm := hb.outstanding_perm_mark hposition ending.status_ne_pending
    exact (hperm.append_left _).trans List.perm_middle
  | @start id rest plan hposition _ _ _ =>
    refine h.of_perm rfl ?_ ?_
    · simp [endings, start, note, Action.ending?, UnitChange.outcome?]
    · have hactive := (active_start_perm rules b id plan).map
        fun lane => (lane.unit, b.stage.position)
      have hperm := hb.outstanding_perm_mark hposition UnitStatus.running_ne_pending
      exact (hperm.append_left _).trans (List.perm_middle.trans (hactive.symm.append_right _))
  | @record lane _ delivered hposition hdelivered =>
    refine h.of_close rfl rfl ?_
    rw [hb.outstanding_record hdelivered]
    have hperm := (active_perm_of_delivered hdelivered).map
      fun lane => (lane.unit, b.stage.position)
    exact hperm.append_right _
  | enter hposition hrest =>
    refine h.of_perm rfl rfl ?_
    rw [hb.outstanding_enter hposition hrest]
    have hactive := (hb.ended hposition).1
    simp [underway, show (b.enter rules _ _).active = b.active from rfl, hactive]

/-- Every step of a build keeps the account, for what lanes do is no end of a unit. -/
theorem step (hb : b.Sound rules stages) (h : b.Accounted stages) (hstep : Step rules b b') :
    b'.Accounted stages := by
  cases hstep with
  | idle => exact h
  | advance hstep => exact h.advance hb hstep
  | @act pre post lane action hworking hnext =>
    refine h.of_perm rfl ?_ (.append_right _ (.of_eq ?_))
    · simp [endings, note, Action.ending?_of_isInner (Lane.isInner_of_next? hnext)]
    · simp [underway, active, note, hworking]
  | deliver hworking _ _ =>
    refine h.of_perm rfl rfl ?_
    exact ((active_perm_of_working hworking).map _).append_right _
  | release hdelivered =>
    refine h.of_perm rfl rfl (.append_right _ (.of_eq ?_))
    simp [underway, active, hdelivered]

/-- The account is right after any moves. -/
theorem after (hlineup : Lineup rules.units stages) (hb : b.Sound rules stages)
    (h : b.Accounted stages) (moves : List Move) : (b.after rules moves).Accounted stages := by
  have hboth := after_induction (P := fun b => b.Sound rules stages ∧ b.Accounted stages)
    (fun hb hstep => ⟨hb.1.step hlineup hstep, hb.2.step hb.1 hstep⟩) ⟨hb, h⟩ moves
  exact hboth.2

end Accounted

/-- The endings that the trace tells of are those of the units that have a result. -/
theorem Accounted.map_endings (h : b.Accounted stages) : b.endings.map (·.1) = b.settled := by
  rw [h.endings_eq, List.map_map]
  rfl

/-- No unit has two results in one segment. -/
theorem Accounted.nodup_settled (h : b.Accounted stages)
    (hnodup : (stages.flatMap Stage.pairs).Nodup) : b.settled.Nodup :=
  (List.nodup_append.1 (h.perm.nodup_iff.2 hnodup)).1

/-- What is underway or outstanding has no result. -/
theorem Accounted.notMem_settled (h : b.Accounted stages)
    (hnodup : (stages.flatMap Stage.pairs).Nodup) {part : String × Nat}
    (hpart : part ∈ b.underway ++ b.outstanding) : part ∉ b.settled := by
  intro hsettled
  have hdisjoint := (List.nodup_append.1 (h.perm.nodup_iff.2 hnodup)).2.2
  exact hdisjoint part hsettled part hpart rfl

/-- On what is outstanding no lane works. -/
theorem Accounted.notMem_underway (h : b.Accounted stages)
    (hnodup : (stages.flatMap Stage.pairs).Nodup) {part : String × Nat}
    (hpart : part ∈ b.outstanding) : part ∉ b.underway := by
  intro hunderway
  have hrest := (List.nodup_append.1 (h.perm.nodup_iff.2 hnodup)).2.1
  exact (List.nodup_append.1 hrest).2.2 part hunderway part hpart rfl

/-- In a build that is over, all units are settled. -/
theorem Sound.outstanding_of_isOver (h : b.Sound rules stages) (hover : b.isOver = true) :
    b.underway = [] ∧ b.outstanding = [] := by
  simp only [isOver, Bool.and_eq_true, decide_eq_true_eq, List.isEmpty_iff] at hover
  obtain ⟨hactive, hpending⟩ := h.ended hover.1
  simp [underway, outstanding, hactive, hpending, hover.2]

/-- What a build that is over tells of the units of its segments: of each of them one result and one
ending, and of nothing else. -/
structure Settles (parts : List (String × Nat)) (b : BuildRun) : Prop where
  /-- Each has exactly one result and exactly one ending, with the same outcome. -/
  exactly_one : ∀ part ∈ parts, ∃ result,
    b.summary.results.filter (·.key = part) = [result] ∧
      b.endings.filter (·.1 = part) = [(part, result.outcome)]
  key_mem : ∀ result ∈ b.summary.results, result.key ∈ parts
  ending_mem : ∀ ending ∈ b.endings, ending.1 ∈ parts
  total_eq : b.summary.total = parts.length
  sum_eq : b.summary.succeeded + b.summary.failed + b.summary.skipped = b.summary.total

/-- Where no key comes twice, the elements with the key of one of them are that one. -/
theorem filter_eq_singleton {α β : Type} [DecidableEq β] {f : α → β} {l : List α}
    (hnodup : (l.map f).Nodup) {a : α} (ha : a ∈ l) : l.filter (f · = f a) = [a] := by
  obtain ⟨pre, post, rfl⟩ := List.append_of_mem ha
  rw [List.map_append, List.map_cons, List.nodup_append, List.nodup_cons] at hnodup
  obtain ⟨-, ⟨hpost, -⟩, hpre⟩ := hnodup
  rw [List.filter_append, List.filter_cons_of_pos (by simp)]
  have hpre' : pre.filter (f · = f a) = [] := by
    refine List.filter_eq_nil_iff.2 fun x hx heq => ?_
    exact hpre _ (List.mem_map_of_mem hx) _ List.mem_cons_self (of_decide_eq_true heq)
  have hpost' : post.filter (f · = f a) = [] := by
    refine List.filter_eq_nil_iff.2 fun x hx heq => hpost ?_
    rw [← of_decide_eq_true heq]
    exact List.mem_map_of_mem hx
  rw [hpre', hpost', List.nil_append]

/-- A build that is over has settled every unit of every segment. -/
theorem Accounted.settles (hb : b.Sound rules stages) (h : b.Accounted stages)
    (hnodup : (stages.flatMap Stage.pairs).Nodup) (hover : b.isOver = true) :
    b.Settles (stages.flatMap Stage.pairs) := by
  obtain ⟨hunderway, houtstanding⟩ := hb.outstanding_of_isOver hover
  have hperm : b.settled.Perm (stages.flatMap Stage.pairs) := by
    have hall := h.perm
    rwa [hunderway, houtstanding, List.append_nil, List.append_nil] at hall
  have hkeys : (b.summary.results.map (·.key)).Nodup := hperm.nodup_iff.2 hnodup
  refine ⟨?_, ?_, ?_, ?_, h.counted.sum_eq⟩
  · intro part hpart
    obtain ⟨result, hresult, rfl⟩ := List.mem_map.1 (hperm.mem_iff.2 hpart)
    have hone := filter_eq_singleton hkeys hresult
    refine ⟨result, hone, ?_⟩
    rw [h.endings_eq, List.filter_map]
    exact congrArg _ hone
  · intro result hresult
    exact hperm.mem_iff.1 (List.mem_map_of_mem hresult)
  · intro ending hending
    rw [h.endings_eq] at hending
    obtain ⟨result, hresult, rfl⟩ := List.mem_map.1 hending
    exact hperm.mem_iff.1 (List.mem_map_of_mem hresult)
  · rw [h.counted.total, ← hperm.length_eq, settled, List.length_map]

end BuildRun

namespace Session

/-- The account is right when a build of a session begins. -/
theorem accounted_start (s : Session) (segments : List Segment) :
    (s.start segments).Accounted ({} :: s.stages {} 0 segments) where
  perm := .refl _
  endings_eq := rfl
  counted := ⟨rfl, rfl, rfl, rfl⟩

/-- The account is kept at every moment of a build. -/
theorem accounted_buildAfter (s : Session) (work : Work) (segments : List Segment)
    (moves : List BuildRun.Move) :
    (s.buildAfter work segments moves).Accounted ({} :: s.stages {} 0 segments) :=
  (s.accounted_start segments).after (s.lineup segments) (s.sound_start work segments) moves

/-- The units that are outstanding are those without a result and without an active lane. -/
theorem mem_outstanding_iff (s : Session) (work : Work) (segments : List Segment)
    (moves : List BuildRun.Move) (part : String × Nat) :
    part ∈ (s.buildAfter work segments moves).outstanding ↔ part ∈ s.parts segments ∧
      part ∉ (s.buildAfter work segments moves).settled ∧
      part ∉ (s.buildAfter work segments moves).underway := by
  have haccounted := s.accounted_buildAfter work segments moves
  have hnodup := (s.lineup segments).nodup_pairs
  rw [← s.flatMap_pairs_eq_parts, ← haccounted.perm.mem_iff, List.mem_append, List.mem_append]
  constructor
  · intro hmem
    exact ⟨.inr (.inr hmem), haccounted.notMem_settled hnodup (List.mem_append_right _ hmem),
      haccounted.notMem_underway hnodup hmem⟩
  · rintro ⟨hsome, hnotSettled, hnotUnderway⟩
    exact (hsome.resolve_left hnotSettled).resolve_left hnotUnderway

end Session

end PhasedBuild
