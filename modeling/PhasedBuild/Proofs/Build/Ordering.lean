import PhasedBuild.Proofs.Build.Accounting

/-!
# The order of what happens in a build

* `Step.trace_cases`: a step adds at most one entry to the trace, and only for a unit whose turn has
  come.
* `Sound.settled_of_precedes`: when the turn of a unit has come, all that has to precede it is
  settled.
* `Session.build_is_ordered`: at any moment no more units have a place than are allowed, the units
  that are marked as running are those with an active lane, and in the trace no unit comes before
  the ends of the units that it depends on and of all units of earlier segments.
* `marked_units_outnumber_places`: more units may be marked than have a place, for a lane may give
  its place back before its result is recorded.
* `forked_work_is_not_ordered`: the order is that of the units in whose builds things are done, and
  not of all units that events name.
-/

namespace PhasedBuild

/-- What has to come to its end before anything is done for a unit in a segment: all of the segments
before, and in the same segment the units that it depends on. -/
def UnitGraph.Precedes (g : UnitGraph) (part other : String × Nat) : Prop :=
  part.2 < other.2 ∨ part.2 = other.2 ∧ g.DependsOn other.1 part.1

/-- The unit in a segment in whose build an entry stands. -/
def Entry.key (e : Entry) : String × Nat :=
  (e.unit, e.segment)

/-- The unit that the event of an entry names, in the segment of the entry. A step of another unit
may run forked work on it. -/
def Entry.named (e : Entry) : String × Nat :=
  ((e.action.event?.bind Event.unit?).getD e.unit, e.segment)

/-- An event of an entry is about the unit as a whole in whose build the entry stands, or it is of
the inside of that build. -/
def Entry.Labelled (e : Entry) : Prop :=
  ∀ event, e.action = .reported event →
    event.isInner = true ∨ ∃ change, event = .ofUnit e.unit e.segment change

/-- Each entry comes after the ends of all parts that have to precede its key. -/
def Ordered (g : UnitGraph) (parts : List (String × Nat)) (key : Entry → String × Nat)
    (trace : List Entry) : Prop :=
  ∀ (pre post : List Entry) (entry : Entry), trace = pre ++ entry :: post →
    ∀ part ∈ parts, g.Precedes part (key entry) →
      part ∈ (pre.filterMap (·.action.ending?)).map (·.1)

/-- An entry may come last if all that has to precede it has come to its end before. -/
theorem Ordered.concat {g : UnitGraph} {parts : List (String × Nat)}
    {key : Entry → String × Nat} {trace : List Entry} (h : Ordered g parts key trace)
    {entry : Entry} (hentry : ∀ part ∈ parts, g.Precedes part (key entry) →
      part ∈ (trace.filterMap (·.action.ending?)).map (·.1)) :
    Ordered g parts key (trace ++ [entry]) := by
  intro pre post other heq
  rcases List.eq_nil_or_concat' post with rfl | ⟨post, last, rfl⟩
  · obtain ⟨rfl, hlast⟩ := List.append_inj' heq rfl
    obtain rfl := List.singleton_inj.1 hlast
    exact hentry
  · rw [← List.cons_append, ← List.append_assoc] at heq
    exact h pre post other (List.append_inj' heq rfl).1

namespace BuildRun

variable {rules : BuildRules} {stages : List Stage} {b b' : BuildRun}

/-- The turn of a unit has come: it can be started or has left the units that wait. -/
def Due (b : BuildRun) (id : String) : Prop :=
  id ∈ b.schedule.ready ∨ ∃ status, b.schedule.statusOf? id = some status ∧ status ≠ .pending

/-- The turn of a unit on which a lane is active has come. -/
theorem Sound.due_of_mem_active (h : b.Sound rules stages) {lane : Lane} (hlane : lane ∈ b.active) :
    b.Due lane.unit :=
  .inr ⟨.running, (h.consistent.running_iff _).2 (List.mem_map_of_mem hlane), by simp⟩

/-- A step leaves the trace as it is or adds one entry, for a unit whose turn has come. -/
theorem Step.trace_cases (h : b.Sound rules stages) (hstep : Step rules b b') :
    b'.trace = b.trace ∨ ∃ entry : Entry, b'.trace = b.trace ++ [entry] ∧
      b.Due entry.unit ∧ entry.segment = b.stage.position ∧ entry.Labelled := by
  have hclosed : ∀ (id : String) (change : UnitChange),
      Entry.Labelled ⟨b.stage.position, id, .reported (.ofUnit id b.stage.position change)⟩ := by
    intro id change event heq
    obtain rfl := Action.reported.inj heq
    exact .inr ⟨change, rfl⟩
  cases hstep with
  | idle => exact .inl rfl
  | advance hstep =>
    cases hstep with
    | onward _ => exact .inl rfl
    | refuse hposition _ => exact .inr ⟨_, rfl, .inl (h.mem_ready hposition), rfl, hclosed _ _⟩
    | start hposition _ _ _ => exact .inr ⟨_, rfl, .inl (h.mem_ready hposition), rfl, hclosed _ _⟩
    | record _ hdelivered =>
      have hdue := h.due_of_mem_active (mem_active_of_delivered hdelivered)
      exact .inr ⟨_, rfl, hdue, rfl, hclosed _ _⟩
    | enter _ _ => exact .inl rfl
  | @act _ _ lane action hworking hnext =>
    refine .inr ⟨_, rfl, h.due_of_mem_active (mem_active_of_working hworking), rfl, ?_⟩
    intro event heq
    have hinner : action.isInner = true := Lane.isInner_of_next? hnext
    rw [show action = .reported event from heq] at hinner
    exact .inl hinner
  | deliver _ _ _ => exact .inl rfl
  | release _ => exact .inl rfl

/-- The stages that are left come after the one that is being built, if units take part in it. -/
theorem Sound.position_lt (hlineup : Lineup rules.units stages) (h : b.Sound rules stages)
    {id : String} (hid : id ∈ b.stage.ids) {stage : Stage} (hstage : stage ∈ b.rest) :
    b.stage.position < stage.position := by
  obtain ⟨past, hcut⟩ := h.cut
  have hordered := hlineup.ordered
  rw [hcut, List.pairwise_append, List.pairwise_cons] at hordered
  refine hordered.2.1.1 stage hstage fun hnil => ?_
  simp [Stage.ids, hnil] at hid

/-- When the turn of a unit has come, all that has to precede it is settled. -/
theorem Sound.settled_of_precedes (hlineup : Lineup rules.units stages) (h : b.Sound rules stages)
    (hb : b.Accounted stages) {id : String} (hdue : b.Due id) {part : String × Nat}
    (hpart : part ∈ stages.flatMap Stage.pairs)
    (hprecedes : rules.units.Precedes part (id, b.stage.position)) : part ∈ b.settled := by
  have hfits := hlineup.fits _ h.stage_mem
  have hids := h.schedule_ids
  have hid : id ∈ b.stage.ids := by
    rw [← hids]
    rcases hdue with hready | ⟨status, hstatus, -⟩
    · exact Schedule.mem_ids_of_statusOf? (h.consistent.mem_ready_iff.1 hready).1
    · exact Schedule.mem_ids_of_statusOf? hstatus
  -- what is of the same stage and has to precede has come to its end
  have hfinished : ∀ d ∈ b.stage.ids, rules.units.Precedes (d, b.stage.position)
      (id, b.stage.position) → b.schedule.isFinished d = true := by
    rintro d hd (hlt | ⟨-, hdep⟩)
    · exact absurd hlt (Nat.lt_irrefl _)
    · exact h.consistent.isFinished_of_dependsOn hfits hdue hd hdep
  rcases List.mem_append.1 (hb.perm.mem_iff.2 hpart) with hsettled | hrest
  · exact hsettled
  exfalso
  rcases List.mem_append.1 hrest with hunderway | houtstanding
  · obtain ⟨lane, hlane, rfl⟩ := List.mem_map.1 hunderway
    have hrunning := (h.consistent.running_iff _).2 (List.mem_map_of_mem hlane)
    have hd := hfinished lane.unit (hids ▸ Schedule.mem_ids_of_statusOf? hrunning) hprecedes
    cases Schedule.isFinished_iff.1 hd _ hrunning
  rcases List.mem_append.1 houtstanding with hpending | hlater
  · obtain ⟨d, hd, rfl⟩ := List.mem_map.1 hpending
    have hstatus := (Schedule.mem_pendingIds_iff h.consistent.nodup_ids).1 hd
    have hd := hfinished d (hids ▸ Schedule.mem_ids_of_statusOf? hstatus) hprecedes
    exact Schedule.Consistent.not_isFinished_of_pending hstatus hd
  · obtain ⟨stage, hstage, hmem⟩ := List.mem_flatMap.1 hlater
    have hlt := h.position_lt hlineup hid hstage
    have hposition : part.2 = stage.position := (Stage.mem_pairs_iff.1 hmem).2
    rcases hprecedes with hbefore | ⟨hsame, -⟩ <;> omega

/-- The trace of a build is in order, and its entries name their units. -/
structure InOrder (stages : List Stage) (rules : BuildRules) (b : BuildRun) : Prop where
  ordered : Ordered rules.units (stages.flatMap Stage.pairs) Entry.key b.trace
  labelled : ∀ entry ∈ b.trace, entry.Labelled

/-- No step of a build puts an entry before its turn. -/
theorem InOrder.step (hlineup : Lineup rules.units stages) (h : b.Sound rules stages)
    (hb : b.Accounted stages) (horder : b.InOrder stages rules) (hstep : Step rules b b') :
    b'.InOrder stages rules := by
  rcases hstep.trace_cases h with htrace | ⟨entry, htrace, hdue, hsegment, hlabelled⟩
  · refine ⟨?_, ?_⟩
    · rw [htrace]
      exact horder.ordered
    · rw [htrace]
      exact horder.labelled
  · refine ⟨?_, ?_⟩
    · rw [htrace]
      refine horder.ordered.concat fun part hpart hprecedes => ?_
      have hsettled := h.settled_of_precedes hlineup hb hdue hpart
        (by rwa [Entry.key, hsegment] at hprecedes)
      exact hb.map_endings ▸ hsettled
    · intro other hother
      rw [htrace] at hother
      rcases List.mem_append.1 hother with hold | hnew
      · exact horder.labelled other hold
      · obtain rfl := List.mem_singleton.1 hnew
        exact hlabelled

/-- Whatever moves are made, no entry comes before its turn. -/
theorem InOrder.after (hlineup : Lineup rules.units stages) (h : b.Sound rules stages)
    (hb : b.Accounted stages) (horder : b.InOrder stages rules) (moves : List Move) :
    (b.after rules moves).InOrder stages rules := by
  have hall := after_induction
    (P := fun b => b.Sound rules stages ∧ b.Accounted stages ∧ b.InOrder stages rules)
    (fun ⟨hsound, haccounted, horder⟩ hstep => ⟨hsound.step hlineup hstep,
      haccounted.step hsound hstep, horder.step hlineup hsound haccounted hstep⟩)
    ⟨h, hb, horder⟩ moves
  exact hall.2.2

end BuildRun

namespace Session

variable (s : Session) (work : Work) (segments : List Segment) (moves : List BuildRun.Move)

/-- The trace of a build is in order at every moment. -/
theorem inOrder_buildAfter : (s.buildAfter work segments moves).InOrder
    ({} :: s.stages {} 0 segments) (s.rules work) := by
  refine .after (s.lineup segments) (s.sound_start work segments) (s.accounted_start segments) ?_ _
  refine ⟨?_, fun _ hentry => absurd hentry List.not_mem_nil⟩
  intro pre post entry heq
  exact absurd heq.symm (List.append_ne_nil_of_right_ne_nil _ (List.cons_ne_nil _ _))

/-- At every moment of every build: no more lanes have a place than are allowed; the units that the
schedule marks as running are those that a lane is active on, each once; every event is about the
unit in whose build it stands or is of the inside of that build; and whatever is noted in the build
of a unit in a segment comes after the ends there of all units that it depends on, and after the
ends of all units of the segments before.

A lane that has delivered its result may give its place back before the result is recorded. Its unit
is marked as running for as long as the result waits, although its work is done. -/
theorem build_is_ordered :
    (s.buildAfter work segments moves).occupied ≤ max 1 s.settings.threads ∧
    (∀ id, (s.buildAfter work segments moves).schedule.statusOf? id = some .running ↔
      ∃ lane ∈ (s.buildAfter work segments moves).active, lane.unit = id) ∧
    ((s.buildAfter work segments moves).active.map (·.unit)).Nodup ∧
    (∀ entry ∈ (s.buildAfter work segments moves).trace, entry.Labelled) ∧
    Ordered s.units (s.parts segments) Entry.key (s.buildAfter work segments moves).trace := by
  have hsound := s.sound_buildAfter work segments moves
  have horder := s.inOrder_buildAfter work segments moves
  refine ⟨hsound.occupied_le, ?_, hsound.consistent.nodup_active, horder.labelled, ?_⟩
  · intro id
    rw [hsound.consistent.running_iff, List.mem_map]
  · rw [← s.flatMap_pairs_eq_parts]
    exact horder.ordered

end Session

/-- Three units that do not depend on each other. -/
def UnitGraph.peers : UnitGraph where
  units := [{ id := "core" }, { id := "docs" }, { id := "site" }]
  sorted := [{ id := "core" }, { id := "docs" }, { id := "site" }]
  nodup_ids := by decide
  sorted_perm := .refl _
  arranged := ⟨rfl, rfl, rfl, trivial⟩

/-- A session that builds three units on two threads, without any plugins. -/
def Session.ofPeers : Session where
  workspace := { units := .peers, root := "core", contains_root := rfl }
  planner := {}
  settings := { threads := 2 }

/-- More units may be marked as running than places are taken, and than there are. The first of
three units delivers its result and gives its place back while the coordinator still goes through
the list, so the last one is started before that result is recorded. -/
theorem marked_units_outnumber_places :
    let work := (Session.ofPeers.executor (fun _ call => (.ok (), call.state)) Resolver.none).work
    let b := Session.ofPeers.buildAfter work [⟨[], false⟩]
      [.coordinate, .coordinate, .coordinate, .work 0, .release 0, .coordinate, .coordinate]
    Session.ofPeers.settings.threads = 2 ∧ b.occupied = 2 ∧
      ∀ id ∈ ["core", "docs", "site"], b.schedule.statusOf? id = some .running := by
  decide +kernel

/-- Three units: the first one groups the last one, which depends on the second one. -/
def UnitGraph.trio : UnitGraph where
  units := [{ id := "root", modules := ["app"] }, { id := "lib" },
    { id := "app", dependencies := [{ unit := "lib" }] }]
  sorted := [{ id := "root", modules := ["app"] }, { id := "lib" },
    { id := "app", dependencies := [{ unit := "lib" }] }]
  nodup_ids := by decide
  sorted_perm := .refl _
  arranged := ⟨rfl, rfl, rfl, trivial⟩

/-- A session of three units without any plugins. -/
def Session.ofTrio : Session where
  workspace := { units := .trio, root := "root", contains_root := rfl }
  planner := {}

/-- The work of three units, the first of which has a step for the whole build. The step forks a
check on all units that the first one reaches. -/
def surveyOfTrio : Work := fun number id before _ =>
  let plugin : Coordinate := { group := "org.acme", artifact := "acme-plugin" }
  let check : Step :=
    { descriptor := { plugin, goal := "check" }
      executionId := "check", source := .forked, configuration := { name := "configuration" } }
  let survey : Step :=
    { descriptor := { plugin, goal := "survey", aggregator := true, fork := some (.goal "check") }
      executionId := "default", source := .lifecycle, configuration := { name := "configuration" } }
  let executor := Session.ofTrio.executor (fun _ call => (.ok (), call.state)) Resolver.none
  let forked := ["root", "lib", "app"].map fun target => ⟨target, [⟨check, .notForking⟩]⟩
  executor.work number id before
    { unit := id, executions := if id = "root" then [⟨survey, .expanded forked⟩] else [] }

/-- The trace of three units up to the start of the check on the last one. -/
def traceOfTrio : List Entry :=
  (Session.ofTrio.buildAfter surveyOfTrio [⟨[], false⟩]
    (.replicate 3 .coordinate ++ .replicate 13 (.work 0))).trace

/-- Events need not come in that order for the units that they name: a step for the whole build may
run forked work on a unit before those that it depends on have come to their ends. -/
theorem forked_work_is_not_ordered : ¬ ∀ moves, Ordered UnitGraph.trio
    (Session.ofTrio.parts [⟨[], false⟩]) Entry.named
    (Session.ofTrio.buildAfter surveyOfTrio [⟨[], false⟩] moves).trace := by
  intro h
  obtain ⟨entry, hentry⟩ : ∃ entry, traceOfTrio.drop 13 = [entry] :=
    List.length_eq_one_iff.1 (by decide +kernel)
  have hnamed : entry.named = ("app", 0) := by
    have hmap : (traceOfTrio.drop 13).map Entry.named = [("app", 0)] := by decide +kernel
    rw [hentry] at hmap
    exact List.singleton_inj.1 hmap
  have htrace : traceOfTrio = traceOfTrio.take 13 ++ [entry] := by
    rw [← hentry, List.take_append_drop]
  have hprecedes : UnitGraph.trio.Precedes ("lib", 0) entry.named := by
    rw [hnamed]
    exact .inr ⟨rfl, .single (by decide +kernel)⟩
  have hended := h _ _ _ _ htrace ("lib", 0) (by decide +kernel) hprecedes
  have hnot : ("lib", 0) ∉ ((traceOfTrio.take 13).filterMap (·.action.ending?)).map (·.1) := by
    decide +kernel
  exact hnot hended

end PhasedBuild
