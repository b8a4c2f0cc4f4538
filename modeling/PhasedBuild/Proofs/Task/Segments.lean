import Mathlib.Data.List.Chain
import PhasedBuild.Proofs.Results
import PhasedBuild.Task

/-!
# Tasks in segments

Tasks are put into segments by a flag: whether a task runs once for the whole build.

* `Segment.grouped_eq_iff`: tasks with flags have one grouping into segments only, in which flags
  alternate from one segment to the next.
* `Segment.tasks_are_grouped`: the segments of written tasks are this grouping, and they exist
  unless there is no task or one that is refused, the first of which is reported.
-/

namespace PhasedBuild

/-! ### Flags -/

/-- A task runs once for the whole build, or on each unit. Phases run on each unit, and a goal runs
once if it works on all units or if it needs no project. -/
inductive Task.RunsOnce (lookup : GoalLookup) : Task → Bool → Prop where
  | phase (name : String) : RunsOnce lookup (.phase name) false
  | goal {g : GoalSpec} {plugin : Coordinate} {descriptor : StepDescriptor}
      (hplugin : g.coordinate lookup.shorthand = .ok plugin)
      (hgoal : lookup.goal plugin g.goal = .ok descriptor) :
      RunsOnce lookup (.goal g) (descriptor.aggregator || !descriptor.projectRequired)

namespace Segment

/-- Why a written task is refused: it is no task, or its goal cannot be found. -/
inductive Refuses (lookup : GoalLookup) (text : String) : BuildError → Prop where
  | unreadable {fault : Fault} (htext : Task.parse text = .error fault) : Refuses lookup text fault
  | plugin {g : GoalSpec} {e : BuildError} (htext : Task.parse text = .ok (.goal g))
      (hplugin : g.coordinate lookup.shorthand = .error e) : Refuses lookup text e
  | goal {g : GoalSpec} {plugin : Coordinate} {e : BuildError}
      (htext : Task.parse text = .ok (.goal g))
      (hplugin : g.coordinate lookup.shorthand = .ok plugin)
      (hgoal : lookup.goal plugin g.goal = .error e) : Refuses lookup text e

/-- A written task is a task whose goal can be found, if it has one. -/
def Accepts (lookup : GoalLookup) (text : String) : Prop :=
  ∃ task, Task.parse text = .ok task ∧ ∃ flag, task.RunsOnce lookup flag

section flags

variable {lookup : GoalLookup} {text : String} {task : Task}

/-- What is found out about a task is whether it runs once for the whole build. -/
theorem isAggregating_eq_ok_iff {flag : Bool} :
    task.isAggregating lookup = .ok flag ↔ task.RunsOnce lookup flag := by
  constructor
  · intro h
    cases task with
    | phase name =>
      obtain rfl := Except.ok.inj h
      exact .phase name
    | goal g =>
      obtain ⟨plugin, hplugin, h⟩ := exists_of_bind_eq_ok h
      obtain ⟨descriptor, hgoal, h⟩ := exists_of_bind_eq_ok h
      obtain rfl := Except.ok.inj h
      exact .goal hplugin hgoal
  · intro h
    cases h with
    | phase name => rfl
    | goal hplugin hgoal => simp [Task.isAggregating, hplugin, hgoal, bind, Except.bind]

/-- A written task is read and found out about. -/
theorem classify_eq_ok_iff {flag : Bool} : classify lookup text = .ok (task, flag) ↔
    Task.parse text = .ok task ∧ task.RunsOnce lookup flag := by
  unfold classify
  split
  next fault htext => simp [htext]
  next other htext =>
    rw [map_eq_ok_iff, htext]
    constructor
    · rintro ⟨found, hflag, heq⟩
      obtain ⟨rfl, rfl⟩ := Prod.mk.inj heq
      exact ⟨rfl, isAggregating_eq_ok_iff.1 hflag⟩
    · rintro ⟨heq, hflag⟩
      obtain rfl := Except.ok.inj heq
      exact ⟨flag, isAggregating_eq_ok_iff.2 hflag, rfl⟩

/-- A written task is accepted exactly if it can be read and its goal can be found. -/
theorem exists_classify_iff : (∃ tagged, classify lookup text = .ok tagged) ↔
    Accepts lookup text := by
  constructor
  · rintro ⟨⟨task, flag⟩, h⟩
    obtain ⟨htext, hflag⟩ := classify_eq_ok_iff.1 h
    exact ⟨task, htext, flag, hflag⟩
  · rintro ⟨task, htext, flag, hflag⟩
    exact ⟨(task, flag), classify_eq_ok_iff.2 ⟨htext, hflag⟩⟩

/-- Nothing can be found out about a goal if its plugin or the goal itself cannot be found. -/
theorem isAggregating_goal_eq_error_iff {g : GoalSpec} {e : BuildError} :
    (Task.goal g).isAggregating lookup = .error e ↔ g.coordinate lookup.shorthand = .error e ∨
      ∃ plugin, g.coordinate lookup.shorthand = .ok plugin ∧
        lookup.goal plugin g.goal = .error e := by
  simp [Task.isAggregating, bind_eq_error_iff]

/-- A written task is refused for the reasons for which tasks are. -/
theorem classify_eq_error_iff {e : BuildError} :
    classify lookup text = .error e ↔ Refuses lookup text e := by
  constructor
  · intro h
    unfold classify at h
    split at h
    next fault htext =>
      obtain rfl := Except.error.inj h
      exact .unreadable htext
    next task htext =>
      rw [map_eq_error_iff] at h
      cases task with
      | phase name => cases h
      | goal g =>
        rcases isAggregating_goal_eq_error_iff.1 h with hplugin | ⟨plugin, hplugin, hgoal⟩
        · exact .plugin htext hplugin
        · exact .goal htext hplugin hgoal
  · intro h
    cases h with
    | unreadable htext => rw [classify, htext]
    | plugin htext hplugin =>
      rw [classify, htext, map_eq_error_iff, isAggregating_goal_eq_error_iff]
      exact .inl hplugin
    | goal htext hplugin hgoal =>
      rw [classify, htext, map_eq_error_iff, isAggregating_goal_eq_error_iff]
      exact .inr ⟨_, hplugin, hgoal⟩

end flags

/-! ### Grouping -/

/-- Segments hold tasks with flags in their order, no segment is empty, and flags alternate from one
segment to the next. -/
structure Groups (tagged : List (Task × Bool)) (segments : List Segment) : Prop where
  flatMap_eq : segments.flatMap (fun s => s.tasks.map (·, s.aggregating)) = tagged
  filled : ∀ s ∈ segments, s.tasks ≠ []
  alternates : segments.IsChain fun s next => next.aggregating = !s.aggregating

/-- Tasks with flags, one put in front of the segments of the others after another. -/
def grouped (tagged : List (Task × Bool)) : List Segment :=
  tagged.foldr (fun (task, aggregating) segments => push task aggregating segments) []

section grouping

variable {task : Task} {flag : Bool} {tagged : List (Task × Bool)} {segments : List Segment}

/-- A task in front joins the first segment if the flags agree, and else makes a segment of its
own. -/
theorem Groups.push (h : Groups tagged segments) (task : Task) (flag : Bool) :
    Groups ((task, flag) :: tagged) (push task flag segments) := by
  obtain ⟨rfl, hfilled, halternates⟩ := h
  cases segments with
  | nil => exact ⟨rfl, by simp [Segment.push], by simp [Segment.push]⟩
  | cons s rest =>
    rw [Segment.push]
    split
    next hsame =>
      subst hsame
      refine ⟨by simp, ?_, ?_⟩
      · simpa using (List.forall_mem_cons.1 hfilled).2
      · rw [List.isChain_cons] at halternates ⊢
        exact halternates
    next hother =>
      refine ⟨by simp, ?_, ?_⟩
      · simpa using hfilled
      · rw [List.isChain_cons_cons]
        exact ⟨Bool.eq_not.2 hother, halternates⟩

/-- Tasks with flags can be grouped. -/
theorem groups_grouped (tagged : List (Task × Bool)) : Groups tagged (grouped tagged) := by
  induction tagged with
  | nil => exact ⟨rfl, by simp [grouped], by simp [grouped]⟩
  | cons entry rest ih => exact ih.push entry.1 entry.2

/-- The first task of a grouping can be taken back. -/
theorem Groups.exists_push (h : Groups ((task, flag) :: tagged) segments) :
    ∃ others, Groups tagged others ∧ segments = Segment.push task flag others := by
  obtain ⟨heq, hfilled, halternates⟩ := h
  cases segments with
  | nil => simp at heq
  | cons s rest =>
    obtain ⟨tasks, aggregating⟩ := s
    obtain ⟨hs, hrest⟩ := List.forall_mem_cons.1 hfilled
    cases tasks with
    | nil => exact absurd rfl hs
    | cons first more =>
      simp only [List.flatMap_cons, List.map_cons, List.cons_append, List.cons.injEq,
        Prod.mk.injEq] at heq
      obtain ⟨⟨rfl, rfl⟩, rfl⟩ := heq
      cases more with
      | nil =>
        -- the task was alone in its segment, so the next segment has the other flag
        refine ⟨rest, ⟨by simp, hrest, halternates.tail⟩, ?_⟩
        cases rest with
        | nil => rfl
        | cons next rest =>
          have hne : next.aggregating ≠ aggregating := by
            rw [(List.isChain_cons_cons.1 halternates).1]
            simp
          rw [Segment.push, if_neg hne]
      | cons second more =>
        refine ⟨⟨second :: more, aggregating⟩ :: rest, ⟨by simp, ?_, ?_⟩, ?_⟩
        · simpa using hrest
        · rw [List.isChain_cons] at halternates ⊢
          exact halternates
        · rw [Segment.push, if_pos rfl]

/-- They can be grouped in one way only. -/
theorem Groups.eq_grouped (h : Groups tagged segments) : segments = grouped tagged := by
  induction tagged generalizing segments with
  | nil =>
    rw [grouped, List.foldr_nil, List.eq_nil_iff_forall_not_mem]
    intro s hs
    have htasks := List.flatMap_eq_nil_iff.1 h.flatMap_eq s hs
    exact h.filled s hs (List.map_eq_nil_iff.1 htasks)
  | cons entry rest ih =>
    obtain ⟨others, hothers, rfl⟩ := h.exists_push
    rw [ih hothers]
    rfl

/-- What tasks are grouped to is just the grouping that there is. -/
theorem grouped_eq_iff : grouped tagged = segments ↔ Groups tagged segments := by
  constructor
  · rintro rfl
    exact groups_grouped tagged
  · intro h
    exact h.eq_grouped.symm

end grouping

/-! ### Segments of written tasks -/

/-- Segments hold written tasks in their order, no segment is empty, flags alternate from one
segment to the next, and each task runs as the flag of its segment says. -/
structure Holds (lookup : GoalLookup) (raw : List String) (segments : List Segment) : Prop where
  reads : List.Forall₂ (fun text task => Task.parse text = .ok task) raw
    (segments.flatMap (·.tasks))
  filled : ∀ s ∈ segments, s.tasks ≠ []
  alternates : segments.IsChain fun s next => next.aggregating = !s.aggregating
  runsOnce : ∀ s ∈ segments, ∀ task ∈ s.tasks, task.RunsOnce lookup s.aggregating

section written

variable {lookup : GoalLookup} {raw : List String} {segments : List Segment}

/-- Written tasks are classified exactly if each is read and each runs as its flag says. -/
theorem forall₂_classify_iff {tagged : List (Task × Bool)} :
    List.Forall₂ (fun text entry => classify lookup text = .ok entry) raw tagged ↔
      List.Forall₂ (fun text task => Task.parse text = .ok task) raw (tagged.map (·.1)) ∧
        ∀ entry ∈ tagged, entry.1.RunsOnce lookup entry.2 := by
  constructor
  · intro h
    induction h with
    | nil => simp
    | cons hfirst _ ih =>
      obtain ⟨htext, hflag⟩ := classify_eq_ok_iff.1 hfirst
      exact ⟨.cons htext ih.1, List.forall_mem_cons.2 ⟨hflag, ih.2⟩⟩
  · rintro ⟨hreads, hflags⟩
    rw [List.forall₂_map_right_iff] at hreads
    induction hreads with
    | nil => exact .nil
    | cons htext _ ih =>
      obtain ⟨hflag, hrest⟩ := List.forall_mem_cons.1 hflags
      exact .cons (classify_eq_ok_iff.2 ⟨htext, hflag⟩) (ih hrest)

/-- Segments hold written tasks exactly if they group what these are classified as. -/
theorem holds_iff : Holds lookup raw segments ↔ ∃ tagged,
    raw.mapM (classify lookup) = .ok tagged ∧ Groups tagged segments := by
  have htasks : (segments.flatMap fun s => s.tasks.map (·, s.aggregating)).map (·.1) =
      segments.flatMap (·.tasks) := by
    simp [List.map_flatMap, Function.comp_def]
  have hflags : (∀ entry ∈ segments.flatMap fun s => s.tasks.map (·, s.aggregating),
      entry.1.RunsOnce lookup entry.2) ↔
        ∀ s ∈ segments, ∀ task ∈ s.tasks, task.RunsOnce lookup s.aggregating := by
    constructor
    · intro h s hs task htask
      exact h _ (List.mem_flatMap.2 ⟨s, hs, List.mem_map_of_mem htask⟩)
    · intro h entry hentry
      obtain ⟨s, hs, hentry⟩ := List.mem_flatMap.1 hentry
      obtain ⟨task, htask, rfl⟩ := List.mem_map.1 hentry
      exact h s hs task htask
  simp only [mapM_eq_ok_iff, forall₂_classify_iff]
  constructor
  · intro h
    refine ⟨_, ⟨?_, hflags.2 h.runsOnce⟩, rfl, h.filled, h.alternates⟩
    rw [htasks]
    exact h.reads
  · rintro ⟨tagged, ⟨hreads, hruns⟩, rfl, hfilled, halternates⟩
    rw [htasks] at hreads
    exact ⟨hreads, hfilled, halternates, hflags.1 hruns⟩

/-- Where there are tasks, each is classified and then they are grouped. -/
theorem ofTasks_of_ne_nil (h : raw ≠ []) :
    ofTasks lookup raw = (raw.mapM (classify lookup)).map grouped := by
  rw [ofTasks, if_neg (by simpa using h)]
  cases raw.mapM (classify lookup) <;> rfl

/-- Written tasks have segments exactly if there are some, all of them are tasks, and all goals are
found. The segments hold the tasks in their order, each next to those with the same flag, and there
is only one way to do so. Otherwise the error is that of the first task that is refused. -/
theorem tasks_are_grouped (lookup : GoalLookup) (raw : List String) :
    ((∃ segments, ofTasks lookup raw = .ok segments) ↔
      raw ≠ [] ∧ ∀ text ∈ raw, Accepts lookup text) ∧
    (∀ segments, ofTasks lookup raw = .ok segments ↔ raw ≠ [] ∧ Holds lookup raw segments) ∧
    ∀ e, ofTasks lookup raw = .error e ↔ (raw = [] ∧ e = Fault.noTasks) ∨
      ∃ front bad back, raw = front ++ bad :: back ∧ (∀ text ∈ front, Accepts lookup text) ∧
        Refuses lookup bad e := by
  by_cases hraw : raw = []
  · subst hraw
    have hnone : ofTasks lookup [] = .error Fault.noTasks := rfl
    refine ⟨by simp [hnone], by simp [hnone], fun e => ?_⟩
    rw [hnone]
    constructor
    · intro h
      exact .inl ⟨rfl, (Except.error.inj h).symm⟩
    · rintro (⟨-, rfl⟩ | ⟨front, bad, back, h, -⟩)
      · rfl
      · simp at h
  · rw [ofTasks_of_ne_nil hraw]
    refine ⟨?_, fun segments => ?_, fun e => ?_⟩
    · have hsucceeds : (∃ segments, (raw.mapM (classify lookup)).map grouped = .ok segments) ↔
          ∃ tagged, raw.mapM (classify lookup) = .ok tagged := by
        simp [map_eq_ok_iff]
      simp only [hsucceeds, exists_mapM_eq_ok_iff, exists_classify_iff, hraw, ne_eq, not_false_iff,
        true_and]
    · simp only [map_eq_ok_iff, grouped_eq_iff, holds_iff, hraw, ne_eq, not_false_iff, true_and]
    · simp only [map_eq_error_iff, mapM_eq_error_iff, exists_classify_iff, classify_eq_error_iff,
        hraw, false_and, false_or]

end written

end Segment

end PhasedBuild
