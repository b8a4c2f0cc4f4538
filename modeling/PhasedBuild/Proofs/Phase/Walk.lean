import Mathlib.Data.List.Chain
import Mathlib.Data.List.Nodup
import Mathlib.Data.List.Perm.Basic
import PhasedBuild.Phase
import PhasedBuild.Proofs.Sorting

/-!
# The walk through declared phases

`Phase.pointsOf` walks through the phases of a list as they are declared. A list of phases is empty,
or a first phase with its nested phases before the others (`Phase.forest_induction`); the facts of
this module go along that.

* `Phase.nodup_pointsOf_iff`: no point comes twice exactly when no name is declared twice.
* `Phase.isChain_pointsOf`: each point of the walk directly follows the one before it by the
  declaration, and `Phase.pair_sublist_of_mem_precedencesOf`: whatever the declaration puts after a
  point comes later in the walk.
-/

namespace PhasedBuild.Phase

/-- What holds of no phases, and of a phase before others if it holds of its nested phases and of
the others, holds of all lists of phases. -/
theorem forest_induction {motive : List Phase → Prop} (nil : motive [])
    (cons : ∀ name inner links bindings rest, motive inner → motive rest →
      motive (⟨name, inner, links, bindings⟩ :: rest)) : (phases : List Phase) → motive phases
  | [] => nil
  | ⟨name, inner, links, bindings⟩ :: rest =>
    cons name inner links bindings rest (forest_induction nil cons inner)
      (forest_induction nil cons rest)

mutual

/-- The names of a phase and of all phases inside it, parents last. -/
def postorder : Phase → List String
  | ⟨name, phases, _, _⟩ => postorderOf phases ++ [name]

/-- The names of the phases of a list and of all phases inside them, parents last. -/
def postorderOf : List Phase → List String
  | [] => []
  | phase :: rest => phase.postorder ++ postorderOf rest

end

/-- One execution point comes before another one in the walk through declared phases. -/
def Earlier (phases : List Phase) (a b : PhaseRef) : Prop :=
  [a, b].Sublist (pointsOf phases)

instance (phases : List Phase) (a b : PhaseRef) : Decidable (Earlier phases a b) :=
  inferInstanceAs (Decidable ([a, b].Sublist (pointsOf phases)))

section cons

variable (name : String) (inner : List Phase) (links : List Link) (bindings : List String)
  (rest : List Phase)

/-- The walk enters a phase, then those inside it, and then those behind it. -/
@[simp] theorem walkAll_cons :
    walkAll (⟨name, inner, links, bindings⟩ :: rest) =
      ⟨name, inner, links, bindings⟩ :: (walkAll inner ++ walkAll rest) := by
  simp [walkAll, walk]

/-- Names come in the order of the walk. -/
@[simp] theorem names_cons :
    names (⟨name, inner, links, bindings⟩ :: rest) = name :: (names inner ++ names rest) := by
  simp [names]

/-- The points inside a phase lie between the point before it and the point at it. -/
@[simp] theorem pointsOf_cons :
    pointsOf (⟨name, inner, links, bindings⟩ :: rest) =
      ⟨.before, name⟩ ::
        (pointsOf inner ++ ⟨.during, name⟩ :: ⟨.after, name⟩ :: pointsOf rest) := by
  simp [pointsOf, points]

/-- A phase comes after those inside it. -/
@[simp] theorem postorderOf_cons :
    postorderOf (⟨name, inner, links, bindings⟩ :: rest) =
      postorderOf inner ++ name :: postorderOf rest := by
  simp [postorderOf, postorder]

end cons

@[simp] theorem walkAll_nil : walkAll [] = [] := rfl

@[simp] theorem names_nil : names [] = [] := rfl

@[simp] theorem pointsOf_nil : pointsOf [] = [] := rfl

@[simp] theorem postorderOf_nil : postorderOf [] = [] := rfl

/-! ### Which points are in the walk -/

/-- The execution points of a phase. -/
def pointsAt (name : String) : List PhaseRef :=
  [⟨.before, name⟩, ⟨.during, name⟩, ⟨.after, name⟩]

/-- The walk has the three points of every name. -/
theorem pointsOf_perm (phases : List Phase) :
    (pointsOf phases).Perm ((names phases).flatMap pointsAt) := by
  induction phases using forest_induction with
  | nil => exact .refl _
  | cons name inner links bindings rest ihinner ihrest =>
    simp only [pointsOf_cons, names_cons, List.flatMap_cons, List.flatMap_append, pointsAt,
      List.cons_append, List.nil_append]
    refine .cons _ ((List.perm_middle.trans (.cons _ List.perm_middle)).trans ?_)
    exact .cons _ (.cons _ (ihinner.append ihrest))

/-- The points of a phase are those that name it. -/
theorem mem_pointsAt_iff {point : PhaseRef} {name : String} :
    point ∈ pointsAt name ↔ point.phase = name := by
  obtain ⟨side, phase⟩ := point
  cases side <;> simp [pointsAt]

/-- The points of phases are those that name one of them. -/
theorem mem_pointsOf_iff {phases : List Phase} {point : PhaseRef} :
    point ∈ pointsOf phases ↔ point.phase ∈ names phases := by
  simp [(pointsOf_perm phases).mem_iff, mem_pointsAt_iff]

/-- A phase that the walk passes is named. -/
theorem mem_names_of_mem_walkAll {phases : List Phase} {phase : Phase}
    (h : phase ∈ walkAll phases) : phase.name ∈ names phases :=
  List.mem_map_of_mem h

/-- No point comes twice in the walk exactly when no name is declared twice. -/
theorem nodup_pointsOf_iff {phases : List Phase} :
    (pointsOf phases).Nodup ↔ (names phases).Nodup := by
  rw [(pointsOf_perm phases).nodup_iff, List.nodup_flatMap]
  constructor
  · rintro ⟨-, hdisjoint⟩
    refine hdisjoint.imp ?_
    rintro a _ h rfl
    have ha : ⟨.during, a⟩ ∈ pointsAt a := mem_pointsAt_iff.2 rfl
    exact h ha ha
  · intro h
    refine ⟨fun name _ => by simp [pointsAt], h.imp fun hne point ha hb => hne ?_⟩
    rw [← mem_pointsAt_iff.1 ha, ← mem_pointsAt_iff.1 hb]

/-- The phase that an execution point is at. -/
def during? (point : PhaseRef) : Option String :=
  match point.side with
  | .during => some point.phase
  | .before => none
  | .after => none

@[simp] theorem during?_before (name : String) : during? ⟨.before, name⟩ = none := rfl

@[simp] theorem during?_during (name : String) : during? ⟨.during, name⟩ = some name := rfl

@[simp] theorem during?_after (name : String) : during? ⟨.after, name⟩ = none := rfl

/-- The points at phases follow the declaration, parents last. -/
theorem filterMap_during?_pointsOf (phases : List Phase) :
    (pointsOf phases).filterMap during? = postorderOf phases := by
  induction phases using forest_induction with
  | nil => rfl
  | cons name inner links bindings rest ihinner ihrest =>
    simp [List.filterMap_cons, ihinner, ihrest]

/-! ### What the declaration puts before what -/

/-- A nested phase lies between the point before its parent and the point at it. -/
def within (parent : Option String) (name : String) : List (PhaseRef × PhaseRef) :=
  match parent with
  | some parent => [(⟨.before, parent⟩, ⟨.before, name⟩), (⟨.after, name⟩, ⟨.during, parent⟩)]
  | none => []

/-- A phase follows its neighbour. -/
def behind (previous : Option String) (name : String) : List (PhaseRef × PhaseRef) :=
  match previous with
  | some previous => [(⟨.after, previous⟩, ⟨.before, name⟩)]
  | none => []

mutual

/-- The pairs of points of which the declaration of a phase puts the first before the second. -/
def precedences (parent : Option String) : Phase → List (PhaseRef × PhaseRef)
  | ⟨name, phases, _, _⟩ =>
    (⟨.before, name⟩, ⟨.during, name⟩) :: (⟨.during, name⟩, ⟨.after, name⟩) ::
      (within parent name ++ precedencesOf (some name) none phases)

/-- `precedences` for phases that follow each other behind the phase `previous`. -/
def precedencesOf (parent previous : Option String) : List Phase → List (PhaseRef × PhaseRef)
  | [] => []
  | phase :: rest =>
    phase.precedences parent ++ behind previous phase.name ++
      precedencesOf parent (some phase.name) rest

end

@[simp] theorem precedencesOf_nil (parent previous : Option String) :
    precedencesOf parent previous [] = [] := rfl

/-- A phase precedes by its own three points, by its place in its parent and by its neighbour; then
come the phases inside it and those behind it. -/
@[simp] theorem precedencesOf_cons (parent previous : Option String) (name : String)
    (inner : List Phase) (links : List Link) (bindings : List String) (rest : List Phase) :
    precedencesOf parent previous (⟨name, inner, links, bindings⟩ :: rest) =
      (⟨.before, name⟩, ⟨.during, name⟩) :: (⟨.during, name⟩, ⟨.after, name⟩) ::
        (within parent name ++ precedencesOf (some name) none inner ++ behind previous name ++
          precedencesOf parent (some name) rest) := by
  simp [precedencesOf, precedences]

/-- The walk begins before a phase of the list. -/
theorem exists_of_mem_head?_pointsOf {phases : List Phase} {point : PhaseRef}
    (h : point ∈ (pointsOf phases).head?) :
    ∃ phase ∈ phases.head?, point = ⟨.before, phase.name⟩ := by
  rcases phases with _ | ⟨⟨name, inner, links, bindings⟩, rest⟩
  · cases h
  · exact ⟨_, rfl, by simpa using h.symm⟩

/-- The walk ends after a phase of the list. -/
theorem exists_of_mem_getLast?_pointsOf {phases : List Phase} {point : PhaseRef}
    (h : point ∈ (pointsOf phases).getLast?) :
    ∃ phase ∈ phases, point = ⟨.after, phase.name⟩ := by
  induction phases with
  | nil => cases h
  | cons first rest ih =>
    have hfirst : first.points.getLast? = some ⟨.after, first.name⟩ := by
      obtain ⟨name, inner, links, bindings⟩ := first
      rw [points, List.getLast?_append]
      rfl
    rw [pointsOf, List.getLast?_append, hfirst] at h
    cases hrest : (pointsOf rest).getLast? with
    | none =>
      rw [hrest] at h
      exact ⟨first, List.mem_cons_self, (Option.some.inj h).symm⟩
    | some last =>
      rw [hrest] at h
      obtain ⟨phase, hmem, hphase⟩ := ih (hrest.trans h)
      exact ⟨phase, List.mem_cons_of_mem _ hmem, hphase⟩

/-- The place of a phase in its parent is one of the precedences. -/
theorem mem_precedencesOf_of_mem_within {phases : List Phase} {phase : Phase}
    (h : phase ∈ phases) {parent previous : Option String} {pair : PhaseRef × PhaseRef}
    (hpair : pair ∈ within parent phase.name) : pair ∈ precedencesOf parent previous phases := by
  induction phases generalizing previous with
  | nil => cases h
  | cons first rest ih =>
    obtain ⟨name, inner, links, bindings⟩ := first
    rcases List.mem_cons.1 h with rfl | h
    · simp [hpair]
    · simp [ih h]

/-- Each point of the walk directly follows the one before it by the declaration. -/
theorem isChain_pointsOf {R : PhaseRef → PhaseRef → Prop} {phases : List Phase}
    {parent previous : Option String}
    (h : ∀ pair ∈ precedencesOf parent previous phases, R pair.1 pair.2) :
    (pointsOf phases).IsChain R := by
  induction phases using forest_induction generalizing parent previous with
  | nil => exact .nil
  | cons name inner links bindings rest ihinner ihrest =>
    simp only [precedencesOf_cons, List.forall_mem_cons, List.forall_mem_append] at h
    obtain ⟨hpoint, hafter, ⟨⟨-, hinner⟩, -⟩, hrest⟩ := h
    have hwithin : ∀ phase ∈ inner, R ⟨.before, name⟩ ⟨.before, phase.name⟩ ∧
        R ⟨.after, phase.name⟩ ⟨.during, name⟩ := fun phase hmem =>
      ⟨hinner (_, _) (mem_precedencesOf_of_mem_within hmem List.mem_cons_self),
        hinner (_, _) (mem_precedencesOf_of_mem_within hmem
          (List.mem_cons_of_mem _ List.mem_cons_self))⟩
    have hfront : (⟨.before, name⟩ :: pointsOf inner).IsChain R := by
      refine List.isChain_cons.2 ⟨fun point hmem => ?_, ihinner hinner⟩
      obtain ⟨phase, hphase, rfl⟩ := exists_of_mem_head?_pointsOf hmem
      exact (hwithin phase (List.mem_of_mem_head? hphase)).1
    have hback : (⟨.after, name⟩ :: pointsOf rest).IsChain R := by
      refine List.isChain_cons.2 ⟨fun point hmem => ?_, ihrest hrest⟩
      obtain ⟨phase, hphase, rfl⟩ := exists_of_mem_head?_pointsOf hmem
      obtain ⟨others, rfl⟩ := List.head?_eq_some_iff.1 hphase
      exact hrest (_, _) (by simp [precedencesOf, behind])
    rw [pointsOf_cons, ← List.cons_append]
    refine List.isChain_append.2 ⟨hfront, .cons_cons hafter hback, ?_⟩
    rintro last hlast _ ⟨⟩
    rw [List.getLast?_cons] at hlast
    cases hinnerLast : (pointsOf inner).getLast? with
    | none =>
      rw [hinnerLast] at hlast
      exact Option.some.inj hlast ▸ hpoint
    | some point =>
      rw [hinnerLast] at hlast
      obtain ⟨phase, hmem, rfl⟩ := exists_of_mem_getLast?_pointsOf (hinnerLast.trans hlast)
      exact (hwithin phase hmem).2

/-- The points that the declaration puts before all phases inside the phase `parent` and behind the
phase `previous`. -/
def opening (parent previous : Option String) : List PhaseRef :=
  (parent.map fun name => ⟨.before, name⟩).toList ++
    (previous.map fun name => ⟨.after, name⟩).toList

/-- The points that the declaration puts behind all phases inside the phase `parent`. -/
def closing (parent : Option String) : List PhaseRef :=
  (parent.map fun name => ⟨.during, name⟩).toList

/-- What the declaration puts after a point comes later in the walk. -/
theorem pair_sublist_of_mem_precedencesOf {phases : List Phase} {parent previous : Option String}
    {pair : PhaseRef × PhaseRef} (h : pair ∈ precedencesOf parent previous phases) :
    [pair.1, pair.2].Sublist
      (opening parent previous ++ (pointsOf phases ++ closing parent)) := by
  induction phases using forest_induction generalizing parent previous with
  | nil => cases h
  | cons name inner links bindings rest ihinner ihrest =>
    simp only [precedencesOf_cons, List.mem_cons, List.mem_append] at h
    have hwalk : ∀ {l : List PhaseRef},
        l.Sublist (pointsOf (⟨name, inner, links, bindings⟩ :: rest)) →
          l.Sublist (opening parent previous ++
            (pointsOf (⟨name, inner, links, bindings⟩ :: rest) ++ closing parent)) := fun h =>
      (h.trans (List.sublist_append_left _ _)).trans (List.sublist_append_right _ _)
    rw [pointsOf_cons] at hwalk ⊢
    rcases h with rfl | rfl | ((h | h) | h) | h
    · exact hwalk (List.cons_sublist_cons.2 (List.singleton_sublist.2 (by simp)))
    · have hsub : [⟨.during, name⟩, ⟨.after, name⟩].Sublist
          (⟨.during, name⟩ :: ⟨.after, name⟩ :: pointsOf rest) := List.sublist_append_left _ _
      exact hwalk ((hsub.trans (List.sublist_append_right _ _)).cons _)
    · cases parent with
      | none => cases h
      | some parent =>
        simp only [within, List.mem_cons, List.not_mem_nil, or_false] at h
        rcases h with rfl | rfl
        · exact pair_sublist_append (by simp [opening]) (by simp)
        · refine .trans ?_ (List.sublist_append_right _ _)
          exact pair_sublist_append (by simp) (by simp [closing])
    · have hsub : [⟨.during, name⟩].Sublist
          (⟨.during, name⟩ :: ⟨.after, name⟩ :: pointsOf rest) := List.sublist_append_left _ _
      exact hwalk ((ihinner h).trans (List.cons_sublist_cons.2 (hsub.append_left (pointsOf inner))))
    · cases previous with
      | none => cases h
      | some previous =>
        obtain rfl := List.mem_singleton.1 h
        exact pair_sublist_append (by simp [opening]) (by simp)
    · refine (ihrest h).trans ?_
      simp only [opening, Option.map_some, Option.toList_some, List.append_assoc, List.cons_append,
        List.nil_append]
      refine .append_left (.trans ?_ (List.sublist_append_right _ _)) _
      exact (((List.Sublist.refl _).cons _).trans (List.sublist_append_right _ _)).cons _

/-- Precedences agree with the walk. -/
theorem earlier_of_mem_precedencesOf {phases : List Phase} {pair : PhaseRef × PhaseRef}
    (h : pair ∈ precedencesOf none none phases) : Earlier phases pair.1 pair.2 := by
  show [pair.1, pair.2].Sublist (pointsOf phases)
  simpa [opening, closing] using pair_sublist_of_mem_precedencesOf h

end PhasedBuild.Phase
