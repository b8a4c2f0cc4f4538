import PhasedBuild.Proofs.Results
import PhasedBuild.Proofs.Text
import PhasedBuild.Task

/-!
# Which texts are tasks

A task reads back as it was written. So the texts that are tasks are those that some task writes,
and no two of them are the same task.

* `GoalSpec.parse?_eq_some_iff`: a text reads as a goal if it is the goal's written form, and if the
  parts of the goal can be told from each other in it.
* `Task.tasks_read_as_written`: the texts that are tasks, said without reading them, and what they
  read as.
-/

namespace PhasedBuild

/-! ### Written goals -/

/-- Names with a colon between each two, and an execution id behind an `@`. -/
def goalText (names : List String) (id : Option String) : String :=
  String.intercalate ":" names ++ id.elim "" ("@" ++ ·)

/-- A text of two to four names with colons between them, where an execution id may follow behind
an `@`. The id may be any text but the empty one, and so may the names if they do not mention colons
and `@`. -/
def IsGoalText (text : String) : Prop :=
  ∃ (names : List String) (id : Option String), names.length ∈ [2, 3, 4] ∧
    (∀ name ∈ names, name ≠ "" ∧ ':' ∉ name.toList ∧ '@' ∉ name.toList) ∧ id ≠ some "" ∧
    text = goalText names id

/-- The characters of a written goal are those of its names with colons in between, and then the
execution id behind an `@`. -/
theorem toList_goalText (names : List String) (id : Option String) :
    (goalText names id).toList =
      [':'].intercalate (names.map String.toList) ++ id.elim [] ('@' :: ·.toList) := by
  cases id <;> simp [goalText]

/-- The names by which a plugin is called. -/
def PluginRef.names : PluginRef → List String
  | .shorthand name => [name]
  | .coordinate c => c.group :: c.artifact :: c.version.toList

namespace GoalSpec

/-- The names in the written form of a goal. -/
def names (g : GoalSpec) : List String :=
  g.plugin.names ++ [g.goal]

/-- A goal is written with two to four names. -/
theorem length_names_mem (g : GoalSpec) : g.names.length ∈ [2, 3, 4] := by
  obtain ⟨_ | ⟨_, _, _ | _⟩, _, _⟩ := g <;> simp [names, PluginRef.names]

/-- Two to four names make a goal. -/
theorem exists_names {names : List String} (h : names.length ∈ [2, 3, 4]) (id : Option String) :
    ∃ g : GoalSpec, g.names = names ∧ g.executionId = id := by
  match names with
  | [shorthand, goal] => exact ⟨⟨.shorthand shorthand, goal, id⟩, rfl, rfl⟩
  | [group, artifact, goal] =>
    exact ⟨⟨.coordinate { group, artifact }, goal, id⟩, rfl, rfl⟩
  | [group, artifact, version, goal] =>
    exact ⟨⟨.coordinate { group, artifact, version := some version }, goal, id⟩, rfl, rfl⟩
  | [] | [_] | _ :: _ :: _ :: _ :: _ :: _ => simp at h

/-- A goal is displayed by its names and its execution id. -/
theorem display_eq (g : GoalSpec) : g.display = goalText g.names g.executionId := by
  obtain ⟨_ | ⟨_, _, _ | _⟩, _, _ | _⟩ := g <;>
    simp [← String.toList_inj, toList_goalText, display, names, PluginRef.names, PluginRef.display,
      Coordinate.display, Coordinate.shortDisplay, List.intercalate_cons_cons]

/-- The parts of a goal can be told from each other where it is written. -/
structure IsWritable (g : GoalSpec) : Prop where
  names : ∀ name ∈ g.names, name ≠ "" ∧ ':' ∉ name.toList ∧ '@' ∉ name.toList
  id : g.executionId ≠ some ""

/-! ### Reading goals -/

/-- A target is read as a plugin and a goal exactly if its parts are their names, none of which is
empty. -/
theorem parseTarget?_eq_some_iff {spec goal : String} {plugin : PluginRef} :
    parseTarget? spec = some (plugin, goal) ↔
      Text.splitOn ':' spec = plugin.names ++ [goal] ∧ "" ∉ plugin.names ++ [goal] := by
  constructor
  · intro h
    unfold parseTarget? at h
    dsimp only at h
    split at h
    next => cases h
    next hempty =>
      have hne : "" ∉ Text.splitOn ':' spec := by simpa using hempty
      split at h
      case h_4 => cases h
      all_goals
        next heq =>
          rw [heq] at hne
          obtain ⟨rfl, rfl⟩ := Prod.mk.inj (Option.some.inj h)
          exact ⟨heq, hne⟩
  · rintro ⟨hsplit, hne⟩
    have hempty : ¬ (plugin.names ++ [goal]).any (·.isEmpty) = true := by simpa using hne
    rw [parseTarget?, hsplit, if_neg hempty]
    obtain _ | ⟨_, _, _ | _⟩ := plugin <;> rfl

/-- What is read as a target is the names with colons between them. -/
theorem parseTarget?_eq_some_iff_names {spec goal : String} {plugin : PluginRef} :
    parseTarget? spec = some (plugin, goal) ↔
      (∀ name ∈ plugin.names ++ [goal], name ≠ "" ∧ ':' ∉ name.toList) ∧
        spec.toList = [':'].intercalate ((plugin.names ++ [goal]).map String.toList) := by
  rw [parseTarget?_eq_some_iff, Text.splitOn_eq_iff]
  constructor
  · rintro ⟨⟨-, hcolon, hspec⟩, hne⟩
    exact ⟨fun name hname => ⟨ne_of_mem_of_not_mem hname hne, hcolon name hname⟩, hspec⟩
  · rintro ⟨hnames, hspec⟩
    refine ⟨⟨by simp, fun name hname => (hnames name hname).2, hspec⟩, ?_⟩
    intro hempty
    exact (hnames "" hempty).1 rfl

/-- A goal is read from a target, which does not mention `@`, and from the execution id behind it.
-/
theorem parse?_eq_some_iff_target {raw : String} {g : GoalSpec} :
    parse? raw = some g ↔ ∃ spec : String, parseTarget? spec = some (g.plugin, g.goal) ∧
      '@' ∉ spec.toList ∧ g.executionId ≠ some "" ∧
      raw.toList = spec.toList ++ g.executionId.elim [] ('@' :: ·.toList) := by
  constructor
  · intro h
    unfold parse? at h
    split at h
    next hcut =>
      obtain ⟨⟨plugin, goal⟩, htarget, rfl⟩ := Option.map_eq_some_iff.1 h
      exact ⟨raw, htarget, Text.splitOnce?_eq_none_iff.1 hcut, by simp, by simp⟩
    next spec id hcut =>
      split at h
      next => cases h
      next hid =>
        obtain ⟨⟨plugin, goal⟩, htarget, rfl⟩ := Option.map_eq_some_iff.1 h
        obtain ⟨hspec, hraw⟩ := Text.splitOnce?_eq_some_iff.1 hcut
        exact ⟨spec, htarget, hspec, by simpa using hid, hraw⟩
  · obtain ⟨plugin, goal, id⟩ := g
    rintro ⟨spec, htarget, hspec, hid, hraw⟩
    cases id with
    | none =>
      obtain rfl : raw = spec := String.toList_inj.1 (by simpa using hraw)
      simp [parse?, Text.splitOnce?_of_notMem hspec, htarget]
    | some id =>
      have hne : ¬ id.isEmpty = true := by simpa using hid
      simp [parse?, Text.splitOnce?_of_eq hspec hraw, htarget, hne]

/-- A text reads as a goal if it is the goal's written form, and if the parts of the goal can be
told from each other in it. -/
theorem parse?_eq_some_iff {raw : String} {g : GoalSpec} :
    parse? raw = some g ↔ g.IsWritable ∧ g.display = raw := by
  have hmentions {spec : String}
      (hspec : spec.toList = [':'].intercalate (g.names.map String.toList)) :
      '@' ∈ spec.toList ↔ ∃ name ∈ g.names, '@' ∈ name.toList := by
    rw [hspec, Text.mem_intercalate_iff (by decide)]
    simp
  have hdisplay : g.display = raw ↔ raw.toList =
      [':'].intercalate (g.names.map String.toList) ++ g.executionId.elim [] ('@' :: ·.toList) := by
    rw [← toList_goalText, ← display_eq, String.toList_inj, eq_comm]
  rw [parse?_eq_some_iff_target, hdisplay]
  constructor
  · rintro ⟨spec, htarget, hspec, hid, hraw⟩
    obtain ⟨hnames, hjoin⟩ := parseTarget?_eq_some_iff_names.1 htarget
    refine ⟨⟨fun name hname => ?_, hid⟩, by rw [hraw, hjoin]; rfl⟩
    obtain ⟨hne, hcolon⟩ := hnames name hname
    exact ⟨hne, hcolon, fun hat => hspec ((hmentions hjoin).2 ⟨name, hname, hat⟩)⟩
  · rintro ⟨hg, hraw⟩
    have hjoin : (String.intercalate ":" g.names).toList =
        [':'].intercalate (g.names.map String.toList) := String.toList_intercalate
    refine ⟨String.intercalate ":" g.names, ?_, fun hat => ?_, hg.id, hraw.trans (by rw [hjoin])⟩
    · refine parseTarget?_eq_some_iff_names.2 ⟨fun name hname => ?_, hjoin⟩
      obtain ⟨hne, hcolon, -⟩ := hg.names name hname
      exact ⟨hne, hcolon⟩
    · obtain ⟨name, hname, hmem⟩ := (hmentions hjoin).1 hat
      exact (hg.names name hname).2.2 hmem

/-- The texts that some goal writes are names with colons between them and an id behind. -/
theorem exists_display_iff {text : String} :
    (∃ g : GoalSpec, g.IsWritable ∧ g.display = text) ↔ IsGoalText text := by
  constructor
  · rintro ⟨g, hg, rfl⟩
    exact ⟨g.names, g.executionId, g.length_names_mem, hg.names, hg.id, g.display_eq⟩
  · rintro ⟨names, id, hlength, hnames, hid, rfl⟩
    obtain ⟨g, rfl, rfl⟩ := exists_names hlength id
    exact ⟨g, ⟨hnames, hid⟩, g.display_eq⟩

/-- A text is read as a goal exactly if the goal can be written and is displayed as this text. -/
theorem parse_eq_ok_iff {raw : String} {g : GoalSpec} :
    parse raw = .ok g ↔ g.IsWritable ∧ g.display = raw := by
  rw [← parse?_eq_some_iff, parse]
  split
  next h => simp [h]
  next h => simp [h]

/-- A written goal has a colon. -/
theorem colon_mem_display (g : GoalSpec) : ':' ∈ g.display.toList := by
  simp [display]

end GoalSpec

/-! ### Reading tasks -/

namespace Task

/-- A task is told from others by its written form: a phase mentions no colon, and the parts of a
goal can be told from each other. -/
def IsWritable : Task → Prop
  | phase name => name ≠ "" ∧ ':' ∉ name.toList
  | goal g => g.IsWritable

/-- A task that can be written is not displayed as an empty text. -/
theorem IsWritable.display_ne_empty {task : Task} (h : task.IsWritable) : task.display ≠ "" := by
  cases task with
  | phase name => exact h.1
  | goal g =>
    intro hempty
    have hcolon := g.colon_mem_display
    rw [show g.display = "" from hempty] at hcolon
    simp at hcolon

/-- A blank text is no task. -/
theorem parse_of_blank {s : String} (h : Text.trim s = "") : parse s = .error .emptyTask := by
  simp [parse, h]

/-- A text with a colon is read as a goal. -/
theorem parse_of_mem {s : String} (h : ':' ∈ (Text.trim s).toList) :
    parse s = (GoalSpec.parse (Text.trim s)).map .goal := by
  have hne : Text.trim s ≠ "" := by
    intro hblank
    rw [hblank] at h
    simp at h
  rw [parse, if_neg (by simpa using hne), if_pos (Text.mentions_iff.2 h)]

/-- Any other text is read as a phase. -/
theorem parse_of_notMem {s : String} (hne : Text.trim s ≠ "") (h : ':' ∉ (Text.trim s).toList) :
    parse s = .ok (.phase (Text.trim s)) := by
  rw [parse, if_neg (by simpa using hne), if_neg fun hmentions => h (Text.mentions_iff.1 hmentions)]

/-- A text reads as a task if the task, whose parts must be told from each other, is written like
the text without blanks at its ends. -/
theorem parse_eq_ok_iff {s : String} {task : Task} :
    parse s = .ok task ↔ task.IsWritable ∧ task.display = Text.trim s := by
  by_cases hblank : Text.trim s = ""
  · rw [parse_of_blank hblank, hblank]
    simp only [reduceCtorEq, false_iff, not_and]
    exact IsWritable.display_ne_empty
  by_cases hcolon : ':' ∈ (Text.trim s).toList
  · rw [parse_of_mem hcolon, map_eq_ok_iff]
    constructor
    · rintro ⟨g, hg, rfl⟩
      exact GoalSpec.parse_eq_ok_iff.1 hg
    · rintro ⟨htask, hdisplay⟩
      cases task with
      | phase name =>
        obtain rfl : name = Text.trim s := hdisplay
        exact absurd hcolon htask.2
      | goal g => exact ⟨g, GoalSpec.parse_eq_ok_iff.2 ⟨htask, hdisplay⟩, rfl⟩
  · rw [parse_of_notMem hblank hcolon]
    constructor
    · rintro ⟨⟩
      exact ⟨⟨hblank, hcolon⟩, rfl⟩
    · rintro ⟨-, hdisplay⟩
      cases task with
      | phase name => rw [show name = Text.trim s from hdisplay]
      | goal g =>
        have hmem := g.colon_mem_display
        rw [show g.display = Text.trim s from hdisplay] at hmem
        exact absurd hmem hcolon

/-- The texts that are tasks are those that are left with something when they are trimmed, and
with a phase, which mentions no colon, or with a written goal. What a text reads as is written like
the trimmed text, reads as itself again, and is read from no text that is another one when it is
trimmed. -/
theorem tasks_read_as_written (s : String) :
    ((∃ task, parse s = .ok task) ↔
      Text.trim s ≠ "" ∧ (':' ∉ (Text.trim s).toList ∨ IsGoalText (Text.trim s))) ∧
    ∀ task, parse s = .ok task → task.display = Text.trim s ∧ parse task.display = .ok task ∧
      ∀ other, parse other = .ok task → Text.trim other = Text.trim s := by
  constructor
  · simp only [parse_eq_ok_iff]
    constructor
    · rintro ⟨task, htask, hdisplay⟩
      refine ⟨hdisplay ▸ htask.display_ne_empty, ?_⟩
      cases task with
      | phase name => exact .inl (hdisplay ▸ htask.2)
      | goal g => exact .inr (GoalSpec.exists_display_iff.1 ⟨g, htask, hdisplay⟩)
    · rintro ⟨hne, hphase | hgoal⟩
      · exact ⟨.phase (Text.trim s), ⟨hne, hphase⟩, rfl⟩
      · obtain ⟨g, hg, hdisplay⟩ := GoalSpec.exists_display_iff.2 hgoal
        exact ⟨.goal g, hg, hdisplay⟩
  · intro task h
    obtain ⟨htask, hdisplay⟩ := parse_eq_ok_iff.1 h
    refine ⟨hdisplay, parse_eq_ok_iff.2 ⟨htask, ?_⟩, fun other hother => ?_⟩
    · rw [hdisplay, Text.trim_trim]
    · exact (parse_eq_ok_iff.1 hother).2.symm.trans hdisplay

/-- An `@` in front of the only colon leaves one name for both the plugin and the goal. -/
example : parse "acme@id:check" = .error (.invalidTask "acme@id:check") := rfl

example : parse " acme:check@a:b@c\n" =
    .ok (.goal ⟨.shorthand "acme", "check", some "a:b@c"⟩) := rfl

end Task

end PhasedBuild
