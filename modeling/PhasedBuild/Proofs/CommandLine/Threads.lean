import PhasedBuild.CommandLine.Outcome
import PhasedBuild.Proofs.Lifecycle.Standard
import PhasedBuild.Proofs.Results
import PhasedBuild.Proofs.Settings.Threads

/-!
# From degrees of concurrency to places

A build keeps as many places as its degree of concurrency, and there is a greatest number of places
that can be kept. Whatever layer a degree comes from, it is only checked from below.

* `Given.IsAsked` is what the words of a command line preserve: its number of threads is that of a
  text.
* `Invocation.Gives` is the degree of the topmost layer that gives one.
* `Invocation.outcome_eq_abort_iff`: a program goes down exactly for want of places.
* `Invocation.degrees_are_bounded_below_only`: what an accepted degree comes to.
-/

namespace PhasedBuild.CommandLine

variable {cores : Nat}

/-! ### What has been given -/

namespace Given

variable {g outer : Given}

/-- A number of threads that has been given is that of a text. -/
def IsAsked (cores : Nat) (g : Given) : Prop :=
  ∀ n, g.threads = some n → ∃ text, Settings.threads cores text = .ok n

/-- Where nothing has been given, no number of threads has been. -/
theorem isAsked_empty : ({} : Given).IsAsked cores := nofun

/-- A switch gives no number of threads. -/
theorem IsAsked.put (h : g.IsAsked cores) {switch : Switch} {g' : Given}
    (hput : g.put switch = .ok g') : g'.IsAsked cores := by
  unfold Given.put at hput
  split at hput
  · cases hput
  · obtain rfl := Except.ok.inj hput
    exact h

/-- The value of one setting leaves the others as they are. -/
theorem threads_withValue? {setting : Setting} {text : String} {g' : Given}
    (h : g.withValue? cores setting text = some g') : g'.threads = g.threads ∨
      ∃ n, Settings.threads cores text = .ok n ∧ g'.threads = some n := by
  cases setting with
  | threads =>
    cases hn : Settings.threads cores text with
    | error => simp [withValue?, hn, Except.toOption] at h
    | ok n =>
      simp only [withValue?, hn, Except.toOption, Option.map_some, Option.some.injEq] at h
      exact .inr ⟨n, rfl, h ▸ rfl⟩
  | manifest =>
    obtain ⟨-, hsome⟩ := Option.ite_none_left_eq_some.1 h
    exact .inl (Option.some.inj hsome ▸ rfl)
  | config =>
    obtain ⟨-, hsome⟩ := Option.ite_none_left_eq_some.1 h
    exact .inl (Option.some.inj hsome ▸ rfl)
  | logFormat =>
    obtain ⟨format, -, rfl⟩ := Option.map_eq_some_iff.1 h
    exact .inl rfl
  | lifecycle => exact .inl (Option.some.inj h ▸ rfl)

/-- A setting that is given as a number of threads is that of its text. -/
theorem IsAsked.set (h : g.IsAsked cores) {setting : Setting} {text : String} {g' : Given}
    (hset : g.set cores setting text = .ok g') : g'.IsAsked cores := by
  have hvalue : g.withValue? cores setting text = some g' := by
    unfold Given.set at hset
    split at hset
    case h_1 => cases hset
    case h_2 given hgiven =>
      split at hset
      · cases hset
      · rw [hgiven, Except.ok.inj hset]
  intro n hn
  rcases threads_withValue? hvalue with hsame | ⟨m, hm, hnew⟩
  · exact h n (hsame ▸ hn)
  · obtain rfl : m = n := Option.some.inj (hnew.symm.trans hn)
    exact ⟨text, hm⟩

/-- Of a number of threads that is given twice the inner one counts, and both are those of texts. -/
theorem IsAsked.inside (h : g.IsAsked cores) (houter : outer.IsAsked cores) :
    (g.inside outer).IsAsked cores := by
  intro n hn
  rcases Option.or_eq_some_iff.1 hn with hn | ⟨-, hn⟩
  · exact h n hn
  · exact houter n hn

/-- What is given consistently stays as it is. -/
theorem eq_of_consistent {g' : Given} (h : g.consistent = .ok g') : g' = g := by
  unfold consistent at h
  split at h
  · cases h
  · exact (Except.ok.inj h).symm

end Given

/-! ### Words -/

namespace Progress

variable {p p' : Progress}

/-- All numbers of threads that have been read are those of texts. -/
structure IsAsked (cores : Nat) (p : Progress) : Prop where
  given : p.given.IsAsked cores
  outer : p.outer.IsAsked cores

/-- A switch adds no number of threads to what has been read. -/
theorem IsAsked.put (h : p.IsAsked cores) {switch : Switch} (hput : p.put switch = .ok p') :
    p'.IsAsked cores := by
  obtain ⟨given, hgiven, heq⟩ := exists_of_bind_eq_ok hput
  obtain rfl := Except.ok.inj heq
  exact ⟨h.given.put hgiven, h.outer⟩

/-- A setting adds no number of threads to what has been read but that of its text. -/
theorem IsAsked.set (h : p.IsAsked cores) {setting : Setting} {text : String}
    (hset : p.set cores setting text = .ok p') : p'.IsAsked cores := by
  obtain ⟨given, hgiven, heq⟩ := exists_of_bind_eq_ok hset
  obtain rfl := Except.ok.inj heq
  exact ⟨h.given.set hgiven, h.outer⟩

/-- A name, with its value behind it or in the next word, adds the number of its text at most. -/
theorem IsAsked.readName (h : p.IsAsked cores) {name : String} {value : Option String}
    (hread : p.readName cores name value = .ok p') : p'.IsAsked cores := by
  unfold Progress.readName at hread
  split at hread
  · exact h.put hread
  · cases hread
  · split at hread
    · exact h.set hread
    · obtain rfl := Except.ok.inj hread
      exact ⟨h.given, h.outer⟩
    · cases hread

/-- So do letters that stand together. -/
theorem IsAsked.readLetters {letters : List Char} (h : p.IsAsked cores)
    (hread : p.readLetters cores letters = .ok p') : p'.IsAsked cores := by
  induction letters generalizing p with
  | nil => exact Except.ok.inj hread ▸ h
  | cons c rest ih =>
    unfold Progress.readLetters at hread
    split at hread
    next switch _ =>
      split at hread
      next next hput => exact ih (h.put hput) hread
      next => cases hread
    next =>
      split at hread
      · obtain rfl := Except.ok.inj hread
        exact ⟨h.given, h.outer⟩
      · exact h.set hread
      · exact h.set hread
      · cases hread

/-- Any other word adds none. -/
theorem IsAsked.readOther (h : p.IsAsked cores) {word : String}
    (hread : p.readOther word = .ok p') : p'.IsAsked cores := by
  unfold Progress.readOther at hread
  split at hread
  next level _ =>
    obtain ⟨given, hgiven, heq⟩ := exists_of_bind_eq_ok hread
    obtain rfl := Except.ok.inj heq
    rw [Given.eq_of_consistent hgiven]
    exact ⟨Given.isAsked_empty, h.given.inside h.outer⟩
  next =>
    split at hread
    · obtain rfl := Except.ok.inj hread
      exact ⟨h.given, h.outer⟩
    · cases hread

/-- A word behind a hyphen adds the number of its text at most. -/
theorem IsAsked.readHyphenated (h : p.IsAsked cores) {letters : List Char}
    (hread : p.readHyphenated cores letters = .ok p') : p'.IsAsked cores := by
  unfold Progress.readHyphenated at hread
  split at hread
  · obtain rfl := Except.ok.inj hread
    exact ⟨h.given, h.outer⟩
  · split at hread
    · exact h.readName hread
    · exact h.readName hread
  · exact h.readLetters hread

/-- Reading a word. -/
theorem IsAsked.read (h : p.IsAsked cores) {word : String} (hread : p.read cores word = .ok p') :
    p'.IsAsked cores := by
  unfold Progress.read at hread
  split at hread
  · exact h.readOther hread
  · split at hread
    · cases hread
    · exact h.readHyphenated hread
    · exact h.set hread
    · exact h.readOther hread

/-- Reading all words. -/
theorem IsAsked.foldlM {words : List String} (h : p.IsAsked cores)
    (hread : words.foldlM (Progress.read cores) p = .ok p') : p'.IsAsked cores := by
  induction words generalizing p with
  | nil => exact Except.ok.inj hread ▸ h
  | cons word rest ih =>
    rw [List.foldlM_cons] at hread
    obtain ⟨next, hnext, hrest⟩ := exists_of_bind_eq_ok hread
    exact ih (h.read hnext) hrest

/-- In the end, the number of threads on the command line is that of a text. -/
theorem IsAsked.finish (h : p.IsAsked cores) {i : Invocation} (hfinish : p.finish = .ok i)
    {n : Nat} (hn : i.overrides.threads = some n) :
    ∃ text, Settings.threads cores text = .ok n := by
  obtain ⟨level, given, outer, pending, onlyTasks⟩ := p
  cases pending with
  | some setting => cases hfinish
  | none =>
    obtain ⟨own, hown, hcommand⟩ := exists_of_bind_eq_ok hfinish
    obtain rfl := Given.eq_of_consistent hown
    dsimp only at hcommand
    split at hcommand
    · cases hcommand
    · obtain rfl := Except.ok.inj hcommand
      exact h.given.inside h.outer n hn

end Progress

namespace Invocation

/-- The number of threads of a command line is that of a text. -/
theorem exists_threads_of_ofWords {words : List String} {i : Invocation}
    (hi : ofWords cores words = .ok i) {n : Nat} (hn : i.overrides.threads = some n) :
    ∃ text, Settings.threads cores text = .ok n := by
  obtain ⟨p, hp, hfinish⟩ := exists_of_bind_eq_ok hi
  have hstart : ({} : Progress).IsAsked cores := ⟨Given.isAsked_empty, Given.isAsked_empty⟩
  exact (hstart.foldlM hp).finish hfinish hn

/-! ### Layers -/

/-- The degree of concurrency that the topmost layer gives: the words of the command line, else the
environment, else the file. -/
inductive Gives (i : Invocation) (s : Surroundings) : Nat → Prop
  | words {n : Nat} (hn : i.overrides.threads = some n) : Gives i s n
  | environment {text : String} {n : Nat} (hwords : i.overrides.threads = none)
      (htext : s.environment Settings.threadsVariable = some text)
      (hn : Settings.threads s.cores text = .ok n) : Gives i s n
  | file {settings : Settings} {source : Option String} (hwords : i.overrides.threads = none)
      (henvironment : s.environment Settings.threadsVariable = none)
      (hfile : i.fileSettings s = .ok (settings, source)) :
      Gives i s settings.build.degreeOfConcurrency

variable {i : Invocation} {s : Surroundings} {settings : Settings} {source : Option String}

/-- The settings of a run have the number of threads that the topmost layer gives. -/
theorem gives_of_settings (h : i.settings s = .ok (settings, source)) :
    i.Gives s settings.build.degreeOfConcurrency := by
  obtain ⟨⟨file, source⟩, hfile, hrest⟩ := exists_of_bind_eq_ok h
  dsimp only at hrest
  split at hrest
  next => cases hrest
  next layered hlayered =>
    obtain ⟨rfl, -⟩ := Prod.mk.inj (Except.ok.inj hrest)
    cases hwords : i.overrides.threads with
    | some n =>
      rw [Settings.withOverrides, hwords]
      exact .words hwords
    | none =>
      rw [Settings.withOverrides, hwords]
      rcases Settings.degree_of_withEnvironment hlayered with ⟨hnone, heq⟩ | ⟨text, htext, hn⟩
      · simp only [Option.getD_none, heq]
        exact .file hwords hnone hfile
      · exact .environment hwords htext hn

/-- A file gives no more threads than it can hold a count. -/
theorem degree_le_of_fileSettings (h : i.fileSettings s = .ok (settings, source)) :
    settings.build.degreeOfConcurrency ≤ Datum.maxCount := by
  unfold fileSettings at h
  dsimp only at h
  split at h
  next =>
    obtain ⟨rfl, -⟩ := Prod.mk.inj (Except.ok.inj h)
    exact Nat.le_of_ble_eq_true rfl
  next =>
    split at h
    next read hread =>
      obtain ⟨rfl, -⟩ := Prod.mk.inj (Except.ok.inj h)
      obtain ⟨d, -, hd⟩ := Option.bind_eq_some_iff.1 hread
      exact Settings.degree_le_of_ofDatum? hd
    next => cases h
  next => cases h

/-- Whatever layer gives a degree, it is a count. -/
theorem Gives.le_maxCount {words : List String} (hi : ofWords s.cores words = .ok i) {n : Nat}
    (h : i.Gives s n) : n ≤ Datum.maxCount := by
  cases h with
  | words hn =>
    obtain ⟨text, htext⟩ := exists_threads_of_ofWords hi hn
    exact (Settings.threads_bounds htext).2
  | environment _ _ hn => exact (Settings.threads_bounds hn).2
  | file _ _ hfile => exact degree_le_of_fileSettings hfile

/-! ### Places -/

/-- Describing an error does not change what succeeds. -/
theorem described_eq_ok_iff {α : Type} {result : Except BuildError α} {a : α} :
    described result = .ok a ↔ result = .ok a := by
  cases result <;> simp [described, Except.mapError]

/-- A session has the settings of the run. -/
theorem settings_of_session {asked tasks : List String} {session : Session}
    (h : i.session s settings asked = .ok (session, tasks)) :
    session.settings = settings.toBuildSettings := by
  obtain ⟨manifest, -, h⟩ := exists_of_bind_eq_ok h
  obtain ⟨written, -, h⟩ := exists_of_bind_eq_ok h
  obtain ⟨made, hmade, h⟩ := exists_of_bind_eq_ok h
  obtain ⟨rfl, -⟩ := Prod.mk.inj (Except.ok.inj h)
  obtain ⟨workspace, -, hmade⟩ := exists_of_bind_eq_ok (described_eq_ok_iff.1 hmade)
  obtain ⟨planner, -, hmade⟩ := exists_of_bind_eq_ok hmade
  rw [← Except.ok.inj hmade]

/-- The places of a run are its degree of concurrency, or one if that is zero. -/
theorem capacity_of_session {asked tasks : List String} {session : Session}
    (h : i.session s settings asked = .ok (session, tasks)) (work : Work) :
    (session.rules work).capacity = max 1 settings.build.degreeOfConcurrency := by
  simp [Session.rules, settings_of_session h, Settings.toBuildSettings, Settings.threadCount]

/-- The build has more threads than there can be places exactly if the settings say so. -/
theorem maxPlaces_lt_threads_iff : maxPlaces < settings.toBuildSettings.threads ↔
    maxPlaces < settings.build.degreeOfConcurrency := by
  simp [Settings.toBuildSettings, Settings.threadCount, maxPlaces]

/-- A build that makes sense goes down exactly if it wants more places than can be kept. -/
theorem build_eq_abort_iff {asked : List String} {json : Bool} :
    i.build s settings asked json = .ok .abort ↔ (∃ session tasks segments,
      i.session s settings asked = .ok (session, tasks) ∧
      session.segments tasks = .ok segments) ∧
      maxPlaces < settings.build.degreeOfConcurrency := by
  constructor
  · intro h
    obtain ⟨⟨session, tasks⟩, hsession, h⟩ := exists_of_bind_eq_ok h
    obtain ⟨segments, hsegments, h⟩ := exists_of_bind_eq_ok h
    refine ⟨⟨session, tasks, segments, hsession, described_eq_ok_iff.1 hsegments⟩, ?_⟩
    rw [← maxPlaces_lt_threads_iff, ← settings_of_session hsession]
    by_contra hfew
    dsimp only at h
    rw [if_neg hfew] at h
    obtain ⟨report, -, h⟩ := exists_of_bind_eq_ok h
    have hcode := congrArg Outcome.exitCode (Except.ok.inj h)
    dsimp only [Outcome.abort] at hcode
    split at hcode <;> cases hcode
  · rintro ⟨⟨session, tasks, segments, hsession, hsegments⟩, hmany⟩
    rw [← maxPlaces_lt_threads_iff, ← settings_of_session hsession] at hmany
    simp only [build, hsession, described_eq_ok_iff.2 hsegments, bind, Except.bind, pure,
      Except.pure, if_pos hmany]

/-- An outcome is an abort only if the run came to that, for errors are reported. -/
theorem ofExcept_eq_abort_iff {result : Except String Outcome} :
    Outcome.ofExcept result = .abort ↔ result = .ok .abort := by
  cases result with
  | error message => exact iff_of_false nofun nofun
  | ok outcome => simp [Outcome.ofExcept]

/-- Listing phases does not abort. -/
theorem listPhases_ne_abort {lifecycle : Option String} {points : Bool} :
    i.listPhases s lifecycle points ≠ .ok .abort := by
  intro h
  obtain ⟨manifest, -, h⟩ := exists_of_bind_eq_ok h
  obtain ⟨registry, -, h⟩ := exists_of_bind_eq_ok h
  obtain ⟨listings, -, h⟩ := exists_of_bind_eq_ok h
  cases congrArg Outcome.exitCode (Except.ok.inj h)

/-- Listing plans does not abort. -/
theorem listPlans_ne_abort {asked : List String} {json : Bool} :
    i.listPlans s settings asked json ≠ .ok .abort := by
  intro h
  obtain ⟨⟨session, tasks⟩, -, h⟩ := exists_of_bind_eq_ok h
  obtain ⟨segments, -, h⟩ := exists_of_bind_eq_ok h
  dsimp only at h
  split at h
  · cases congrArg Outcome.exitCode (Except.ok.inj h)
  · cases congrArg Outcome.exitCode (Except.ok.inj h)

/-- Showing the settings does not abort. -/
theorem showSettings_ne_abort : showSettings settings source ≠ .abort := by
  intro h
  have hcode := congrArg Outcome.exitCode h
  unfold showSettings at hcode
  dsimp only at hcode
  split at hcode <;> cases hcode

/-- Checking a project does not abort. -/
theorem validate_ne_abort : i.validate s settings ≠ .abort := by
  intro h
  have hcode := congrArg Outcome.exitCode h
  unfold validate at hcode
  dsimp only at hcode
  split at hcode
  · cases hcode
  · split at hcode <;> cases hcode

/-- Only a run goes down, and only for want of places. -/
theorem outcome_eq_abort_iff : i.outcome s = .abort ↔
    ∃ settings source asked json, i.settings s = .ok (settings, source) ∧
      i.command = .run asked json ∧
      (∃ session tasks segments, i.session s settings asked = .ok (session, tasks) ∧
        session.segments tasks = .ok segments) ∧
      maxPlaces < settings.build.degreeOfConcurrency := by
  rw [outcome, ofExcept_eq_abort_iff]
  constructor
  · intro h
    obtain ⟨⟨settings, source⟩, hsettings, h⟩ := exists_of_bind_eq_ok h
    dsimp only at h
    split at h
    next => exact absurd h listPhases_ne_abort
    next => exact absurd h listPlans_ne_abort
    next asked json hcommand =>
      exact ⟨settings, source, asked, json, hsettings, hcommand, build_eq_abort_iff.1 h⟩
    next => exact absurd (Except.ok.inj h) showSettings_ne_abort
    next => exact absurd (Except.ok.inj h) validate_ne_abort
  · rintro ⟨settings, source, asked, json, hsettings, hcommand, hrun⟩
    simp only [hsettings, hcommand, bind, Except.bind, build_eq_abort_iff.2 hrun]

/-- What an accepted degree of concurrency comes to. A text can ask for any count from one on. The
degree of all settings is that of the topmost layer that gives one, a count in any case; a build
keeps as many places, or one if it is zero. So there is always a place, but there may be more than
can be kept: then, though manifest and tasks make sense, a run goes down. Nothing else does. -/
theorem degrees_are_bounded_below_only (s : Surroundings) (words : List String) (i : Invocation)
    (hi : ofWords s.cores words = .ok i) :
    (∀ n, (∃ text, Settings.threads s.cores text = .ok n) ↔ 1 ≤ n ∧ n ≤ Datum.maxCount) ∧
    (∀ settings source, i.settings s = .ok (settings, source) →
      i.Gives s settings.build.degreeOfConcurrency ∧
      settings.build.degreeOfConcurrency ≤ Datum.maxCount ∧
      ∀ asked session tasks, i.session s settings asked = .ok (session, tasks) → ∀ work,
        (session.rules work).capacity = max 1 settings.build.degreeOfConcurrency) ∧
    (i.outcome s = .abort ↔
      ∃ settings source asked json, i.settings s = .ok (settings, source) ∧
        i.command = .run asked json ∧
        (∃ session tasks segments, i.session s settings asked = .ok (session, tasks) ∧
          session.segments tasks = .ok segments) ∧
        maxPlaces < settings.build.degreeOfConcurrency) := by
  refine ⟨Settings.exists_threads_iff s.cores, fun settings source hsettings => ?_,
    outcome_eq_abort_iff⟩
  have hgives := gives_of_settings hsettings
  exact ⟨hgives, hgives.le_maxCount hi, fun _ _ _ hsession => capacity_of_session hsession⟩

/-! ### More threads than places -/

/-- A directory with nothing but the manifest of a single unit. -/
def loneDirectory : Surroundings where
  directory := "/work"
  cores := 4
  environment := fun _ => none
  settingsFile := .missing
  manifestFile := .text "[[units]]\nid = \"app\"\n"

/-- A run with one thread more than there can be places. -/
def widest : Invocation where
  command := .run ["compile"] false
  overrides := { threads := some (maxPlaces + 1) }

/-- The words are read as a run with that number of threads. -/
theorem ofWords_widest :
    ofWords 4 ["-T", "2305843009213693952", "run", "compile"] = .ok widest := by
  decide +kernel

/-- The number goes into the settings as it is. -/
theorem settings_widest : widest.settings loneDirectory =
    .ok ({ build := { degreeOfConcurrency := maxPlaces + 1 } }, none) :=
  rfl

/-- The directory has a manifest, and the task can be done with it. -/
theorem exists_manifest_lone : ∃ m, widest.manifestContent loneDirectory = .ok m ∧
    m.lifecycles = [] ∧ m.workspace.isOk = true ∧
    (Segment.ofTasks m.catalog.lookup ["compile"]).isOk = true := by
  have hread : ((Toml.read? "[[units]]\nid = \"app\"\n").bind (Manifest.ofDatum? .toml)).any
      (fun m => m.lifecycles.isEmpty && m.workspace.isOk &&
        (Segment.ofTasks m.catalog.lookup ["compile"]).isOk) = true := by
    decide +kernel
  obtain ⟨m, hm, hgood⟩ := (Option.any_eq_true _ _).1 hread
  simp only [Bool.and_eq_true, List.isEmpty_iff] at hgood
  exact ⟨m, by simp [manifestContent, loneDirectory, hm], hgood.1.1, hgood.1.2, hgood.2⟩

/-- The session of the run has segments to build. -/
theorem exists_session_lone (settings : Settings) : ∃ session tasks segments,
    widest.session loneDirectory settings ["compile"] = .ok (session, tasks) ∧
    session.segments tasks = .ok segments := by
  obtain ⟨m, hm, hlifecycles, hworkspace, hsegments⟩ := exists_manifest_lone
  obtain ⟨workspace, hworkspace⟩ := exists_of_isOk hworkspace
  obtain ⟨segments, hsegments⟩ := exists_of_isOk hsegments
  obtain ⟨registry, hregistry⟩ := Manifest.exists_registry hlifecycles
  let planner : Planner :=
    { registry, catalog := m.catalog, packagings := m.knownPackagings }
  refine ⟨{ workspace, planner, settings := settings.toBuildSettings }, ["compile"], segments, ?_,
    hsegments⟩
  have htasks : m.tasks ["compile"] = .ok ["compile"] := rfl
  have hsession : m.session settings.toBuildSettings =
      .ok { workspace, planner, settings := settings.toBuildSettings } := by
    simp only [Manifest.session, Manifest.planner, hworkspace, hregistry]
    rfl
  simp only [session, hm, bind, Except.bind, htasks, hsession, described, Except.mapError, pure,
    Except.pure]

/-- The run is aborted. -/
theorem outcome_widest : widest.outcome loneDirectory = .abort :=
  outcome_eq_abort_iff.2 ⟨_, _, _, _, settings_widest, rfl, exists_session_lone _,
    Nat.lt_succ_self maxPlaces⟩

/-- The places that the run asks for, and what becomes of it. -/
theorem places_of_widest :
    ofWords loneDirectory.cores ["-T", "2305843009213693952", "run", "compile"] = .ok widest ∧
    (∃ session tasks,
      widest.session loneDirectory { build := { degreeOfConcurrency := maxPlaces + 1 } }
        ["compile"] = .ok (session, tasks) ∧
      ∀ work, (session.rules work).capacity = maxPlaces + 1) ∧
    widest.outcome loneDirectory = .abort := by
  obtain ⟨-, hcapacity, houtcome⟩ := degrees_are_bounded_below_only loneDirectory _ widest
    ofWords_widest
  obtain ⟨session, tasks, segments, hsession, hsegments⟩ := exists_session_lone
    { build := { degreeOfConcurrency := maxPlaces + 1 } }
  refine ⟨ofWords_widest, ⟨session, tasks, hsession, fun work => ?_⟩, ?_⟩
  · exact (hcapacity _ _ settings_widest).2.2 _ session tasks hsession work
  · exact houtcome.2 ⟨_, _, _, _, settings_widest, rfl,
      ⟨session, tasks, segments, hsession, hsegments⟩, Nat.lt_succ_self maxPlaces⟩

/-- Not every number of threads that is accepted can be worked with. -/
theorem accepted_degree_goes_down : ¬ ∀ (s : Surroundings) (words : List String) (i : Invocation),
    ofWords s.cores words = .ok i → i.outcome s ≠ .abort :=
  fun h => h loneDirectory _ widest ofWords_widest outcome_widest

end Invocation

end PhasedBuild.CommandLine
