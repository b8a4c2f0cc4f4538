import PhasedBuild.Units

/-!
# The edges between units

Units are known by their positions in the order of declaration. Each declared dependency is an edge,
which is kept twice: with the unit that is depended on, and with the unit that depends on it.

* `UnitEdges.add` adds an edge unless it is there.
* `UnitEdges.ofUnits` are the edges of a list of units, in the order of their declaration.
-/

namespace PhasedBuild

/-- The edges between `n` units. -/
structure UnitEdges (n : Nat) where
  /-- For each unit those that depend on it. -/
  forward : Vector (List (Fin n)) n
  /-- For each unit those that it depends on. -/
  reverse : Vector (List (Fin n)) n
  mirror : ∀ source target : Fin n, target ∈ forward.get source ↔ source ∈ reverse.get target
  nodup_forward : ∀ source : Fin n, (forward.get source).Nodup
  nodup_reverse : ∀ target : Fin n, (reverse.get target).Nodup

namespace UnitEdges

variable {n : Nat}

/-- No edges. -/
def empty (n : Nat) : UnitEdges n where
  forward := .replicate n []
  reverse := .replicate n []
  mirror := by simp [Vector.get]
  nodup_forward := by simp [Vector.get]
  nodup_reverse := by simp [Vector.get]

@[simp] theorem forward_empty (i : Fin n) : (empty n).forward.get i = [] := by
  simp [empty, Vector.get]

/-- Setting a value changes that one and no other. -/
theorem get_set {α : Type} (values : Vector α n) (i j : Fin n) (value : α) :
    (values.set i value i.isLt).get j = if i = j then value else values.get j := by
  show (values.set i value i.isLt)[j.val] = _
  rw [Vector.getElem_set]
  by_cases h : i = j
  · simp [h]
  · rw [if_neg h, if_neg fun heq => h (Fin.ext heq)]
    rfl

/-- Puts something behind one of several lists. -/
def push {α : Type} (lists : Vector (List α) n) (i : Fin n) (a : α) : Vector (List α) n :=
  lists.set i (lists.get i ++ [a]) i.isLt

/-- Pushing puts an element at the end of one list and leaves the others. -/
theorem get_push {α : Type} (lists : Vector (List α) n) (i j : Fin n) (a : α) :
    (push lists i a).get j = if i = j then lists.get j ++ [a] else lists.get j := by
  rw [push, get_set]
  split
  next h => rw [h]
  next => rfl

/-- Pushing adds an element to one list. -/
theorem mem_get_push {α : Type} {lists : Vector (List α) n} {i j : Fin n} {a b : α} :
    b ∈ (push lists i a).get j ↔ b ∈ lists.get j ∨ i = j ∧ b = a := by
  rw [get_push]
  split
  next h => simp [h]
  next h => simp [h]

/-- Pushing an element that is new to a list repeats nothing. -/
theorem nodup_get_push {α : Type} {lists : Vector (List α) n} {i j : Fin n} {a : α}
    (h : (lists.get j).Nodup) (hnot : a ∉ lists.get i) : ((push lists i a).get j).Nodup := by
  rw [get_push]
  split
  next heq =>
    subst heq
    rw [List.nodup_append]
    refine ⟨h, List.pairwise_singleton _ _, fun b hb c hc heq => ?_⟩
    rw [heq, List.mem_singleton.1 hc] at hb
    exact hnot hb
  next => exact h

/-- Adds an edge to the unit that depends on another one, unless the edge is there. -/
def add (e : UnitEdges n) (source target : Fin n) : UnitEdges n :=
  if h : target ∈ e.forward.get source then e
  else {
    forward := push e.forward source target
    reverse := push e.reverse target source
    mirror := by
      intro i j
      rw [mem_get_push, mem_get_push, e.mirror i j, and_comm (a := source = i),
        eq_comm (a := j), eq_comm (a := source)]
    nodup_forward := fun i => nodup_get_push (e.nodup_forward i) h
    nodup_reverse := fun j => nodup_get_push (e.nodup_reverse j) (mt (e.mirror _ _).2 h) }

/-- An edge that is added leads from its source to its target. -/
theorem mem_forward_add {e : UnitEdges n} {source target i j : Fin n} :
    j ∈ (e.add source target).forward.get i ↔ j ∈ e.forward.get i ∨ source = i ∧ j = target := by
  unfold add
  split
  next h =>
    constructor
    · exact .inl
    · rintro (hold | ⟨rfl, rfl⟩)
      · exact hold
      · exact h
  next => exact mem_get_push

/-- The position of the unit of an id. -/
def position? (units : List BuildUnit) (id : String) : Option (Fin units.length) :=
  units.findFinIdx? (·.id == id)

/-- The unit at the position of an id has that id. -/
theorem id_of_position? {units : List BuildUnit} {id : String} {i : Fin units.length}
    (h : position? units id = some i) : (units.get i).id = id :=
  beq_iff_eq.1 (List.findFinIdx?_eq_some_iff.1 h).1

/-- Every id of a unit has a position. -/
theorem exists_position? {units : List BuildUnit} {id : String} (h : id ∈ units.map (·.id)) :
    ∃ i, position? units id = some i := by
  obtain ⟨unit, hunit, rfl⟩ := List.mem_map.1 h
  refine Option.isSome_iff_exists.1 ?_
  rw [position?, List.isSome_findFinIdx?, List.any_eq_true]
  exact ⟨unit, hunit, beq_iff_eq.2 rfl⟩

/-- The edges that units declare, each from the unit that is depended on. -/
def declared (units : List BuildUnit) : List (Fin units.length × Fin units.length) :=
  (List.finRange units.length).flatMap fun target =>
    (units.get target).dependencies.filterMap fun dependency =>
      (position? units dependency.unit).map (·, target)

/-- The edges between units. -/
def ofUnits (units : List BuildUnit) : UnitEdges units.length :=
  (declared units).foldl (fun e (source, target) => e.add source target) (.empty units.length)

/-- Edges that are added one after the other are all there. -/
theorem mem_forward_foldl {edges : List (Fin n × Fin n)} {e : UnitEdges n} {i j : Fin n} :
    j ∈ (edges.foldl (fun e (source, target) => e.add source target) e).forward.get i ↔
      j ∈ e.forward.get i ∨ (i, j) ∈ edges := by
  induction edges generalizing e with
  | nil => simp
  | cons edge rest ih =>
    obtain ⟨source, target⟩ := edge
    rw [List.foldl_cons, ih, mem_forward_add, List.mem_cons, Prod.mk.injEq, or_assoc,
      eq_comm (a := source)]

/-- A unit is among those that another one depends on if and only if it is what a declared
dependency names. -/
theorem mem_reverse_ofUnits_iff {units : List BuildUnit} {i j : Fin units.length} :
    i ∈ (ofUnits units).reverse.get j ↔
      ∃ dependency ∈ (units.get j).dependencies, position? units dependency.unit = some i := by
  rw [← (ofUnits units).mirror i j, ofUnits, mem_forward_foldl]
  simp only [forward_empty, declared, List.not_mem_nil, false_or, List.mem_flatMap,
    List.mem_finRange, true_and, List.mem_filterMap, Option.map_eq_some_iff, Prod.mk.injEq]
  constructor
  · rintro ⟨_, dependency, hdependency, _, hposition, rfl, rfl⟩
    exact ⟨dependency, hdependency, hposition⟩
  · rintro ⟨dependency, hdependency, hposition⟩
    exact ⟨j, dependency, hdependency, i, hposition, rfl, rfl⟩

end UnitEdges

end PhasedBuild
