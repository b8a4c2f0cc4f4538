import Mathlib.Data.Fintype.EquivFin
import Mathlib.Logic.Relation
import Mathlib.Order.WellFounded
import PhasedBuild.Units.Graph

/-!
# Which units can be built, and in which order

* `UnitEdges.mem_placed_iff`: a unit is placed if and only if it neither lies on a cycle nor depends
  on one.
* `UnitEdges.Greedy.lex`: a greedy order is the least of all orders that place each unit after those
  that it depends on.
* `Placement.Reached.counters_pos`: no counter is lowered that is zero.
* `UnitGraph.units_in_build_order`: what it means for a list of units.
-/

namespace PhasedBuild

open Relation

namespace UnitEdges

variable {n : Nat} {e : UnitEdges n} {i j : Fin n}

/-- A unit depends on another one directly. -/
def Needs (e : UnitEdges n) (i j : Fin n) : Prop :=
  j ∈ e.reverse.get i

/-! ### The units that are placed -/

/-- What a placed unit depends on is placed, and before it. -/
theorem Greedy.idxOf_lt {order : List (Fin n)} (h : e.Greedy order) (hi : i ∈ order)
    (hneeds : e.Needs i j) : j ∈ order ∧ order.idxOf j < order.idxOf i := by
  obtain ⟨pre, post, rfl⟩ := List.append_of_mem hi
  have hready := (h pre post i rfl).1
  have hj : j ∈ pre := hready.reverse_subset j hneeds
  refine ⟨List.mem_append_left _ hj, ?_⟩
  rw [List.idxOf_append_of_mem hj, List.idxOf_append_of_notMem hready.not_mem]
  have hlt := List.idxOf_lt_length_iff.2 hj
  omega

/-- In a greedy order, whatever a unit depends on comes before it, directly or not. -/
theorem Greedy.idxOf_lt_of_transGen {order : List (Fin n)} (h : e.Greedy order) (hi : i ∈ order)
    (hneeds : TransGen e.Needs i j) : j ∈ order ∧ order.idxOf j < order.idxOf i := by
  induction hneeds with
  | single hstep => exact h.idxOf_lt hi hstep
  | tail _ hstep ih =>
    obtain ⟨hmem, hlt⟩ := ih
    obtain ⟨hmem', hlt'⟩ := h.idxOf_lt hmem hstep
    exact ⟨hmem', Nat.lt_trans hlt' hlt⟩

/-- A unit that is left over depends on one that is left over. -/
theorem exists_needs_of_not_placed (hi : i ∉ e.placed.order) :
    ∃ j, e.Needs i j ∧ j ∉ e.placed.order := by
  by_contra hnone
  have hready : e.IsReady e.placed.order i := by
    refine ⟨hi, fun j hj => ?_⟩
    by_contra hnot
    exact hnone ⟨j, hj, hnot⟩
  have hmem := (e.sound_placed.mem_ready_iff i).2 hready
  rw [e.ready_placed] at hmem
  cases hmem

variable (e i) in
/-- A unit is placed if and only if it neither lies on a cycle nor depends on one. -/
theorem mem_placed_iff : i ∈ e.placed.order ↔
    ¬ ∃ j, ReflTransGen e.Needs i j ∧ TransGen e.Needs j j := by
  have hgreedy := e.sound_placed.greedy
  constructor
  · rintro hi ⟨j, hpath, hcycle⟩
    have hj : j ∈ e.placed.order := by
      rcases reflTransGen_iff_eq_or_transGen.1 hpath with rfl | hpath
      · exact hi
      · exact (hgreedy.idxOf_lt_of_transGen hi hpath).1
    exact Nat.lt_irrefl _ (hgreedy.idxOf_lt_of_transGen hj hcycle).2
  · intro hnone
    by_contra hi
    -- What `i` leads to among the units that are left over is finite. Without a cycle, one of them
    -- depends on none of the others.
    let Left := {k : Fin n // ReflTransGen e.Needs i k ∧ k ∉ e.placed.order}
    let below (k m : Left) : Prop := TransGen e.Needs m.1 k.1
    have : Finite Left := Subtype.finite
    have : IsTrans Left below := ⟨fun _ _ _ h h' => h'.trans h⟩
    have : Std.Irrefl below := ⟨fun k h => hnone ⟨k.1, k.2.1, h⟩⟩
    have hwf : WellFounded below := Finite.wellFounded_of_trans_of_irrefl below
    obtain ⟨m, -, hleast⟩ := hwf.has_min Set.univ ⟨⟨i, .refl, hi⟩, trivial⟩
    obtain ⟨j, hneeds, hj⟩ := exists_needs_of_not_placed m.2.2
    exact hleast ⟨j, m.2.1.tail hneeds, hj⟩ trivial (.single hneeds)

/-- In the end, the counters that are not zero are those of the units that are not placed. -/
theorem mem_leftovers_iff : i ∈ e.leftovers ↔ i ∉ e.placed.order := by
  have hsound := e.sound_placed
  have hpos : i ∈ e.leftovers ↔ ∃ j, e.Needs i j ∧ j ∉ e.placed.order := by
    rw [leftovers, List.mem_filter, decide_eq_true_eq, hsound.counters_eq i,
      Placement.missing_pos_iff]
    simp [Needs]
  rw [hpos]
  constructor
  · rintro ⟨j, hneeds, hj⟩ hi
    exact hj (hsound.greedy.mem_of_mem_reverse hi hneeds)
  · exact exists_needs_of_not_placed

/-- No unit is left over twice. -/
theorem nodup_leftovers : e.leftovers.Nodup :=
  (List.nodup_finRange n).sublist List.filter_sublist

/-- All units are placed if and only if there is no cycle. -/
theorem length_placed_iff : e.placed.order.length = n ↔ ∀ i, ¬ TransGen e.Needs i i := by
  constructor
  · intro hlength i hcycle
    have hperm := perm_finRange_of_nodup e.sound_placed.nodup_order hlength
    exact (e.mem_placed_iff i).1 (hperm.mem_iff.2 (List.mem_finRange i)) ⟨i, .refl, hcycle⟩
  · intro hnone
    have hperm : e.placed.order.Perm (List.finRange n) :=
      (List.perm_ext_iff_of_nodup e.sound_placed.nodup_order (List.nodup_finRange n)).2 fun i =>
        iff_of_true ((e.mem_placed_iff i).2 fun ⟨j, _, hcycle⟩ => hnone j hcycle)
          (List.mem_finRange i)
    rw [hperm.length_eq, List.length_finRange]

/-! ### The least order -/

/-- An order of all units that places each of them after those that it depends on. -/
structure Respects (e : UnitEdges n) (order : List (Fin n)) : Prop where
  perm : order.Perm (List.finRange n)
  before : ∀ (pre post : List (Fin n)) (i : Fin n), order = pre ++ i :: post →
    ∀ j, e.Needs i j → j ∈ pre

/-- A greedy order goes on with units that stand no later in the order of declaration. -/
theorem Greedy.lex_of_append {pre rest others : List (Fin n)} (h : e.Greedy (pre ++ rest))
    (hothers : e.Respects (pre ++ others)) (hlength : rest.length = others.length)
    (hne : rest ≠ others) : List.Lex (· < ·) (rest.map Fin.val) (others.map Fin.val) := by
  induction rest generalizing pre others with
  | nil => exact absurd (List.length_eq_zero_iff.1 hlength.symm).symm hne
  | cons i rest ih =>
    cases others with
    | nil => cases hlength
    | cons j others =>
      by_cases heq : i = j
      · subst heq
        rw [List.append_cons] at h hothers
        exact .cons (ih h hothers (Nat.succ.inj hlength) fun hrest => hne (by rw [hrest]))
      · have hnodup := hothers.perm.nodup_iff.2 (List.nodup_finRange n)
        have hj : j ∉ pre := fun hmem =>
          (List.nodup_append.1 hnodup).2.2 j hmem j List.mem_cons_self rfl
        have hle := (h pre rest i rfl).2 j ⟨hj, hothers.before pre others j rfl⟩
        exact .rel (lt_of_le_of_ne hle (Fin.val_ne_of_ne heq))

/-- A greedy order of all units is less than every other order that respects the edges. -/
theorem Greedy.lex {order other : List (Fin n)} (h : e.Greedy order) (hlength : order.length = n)
    (hother : e.Respects other) (hne : order ≠ other) :
    List.Lex (· < ·) (order.map Fin.val) (other.map Fin.val) := by
  have hstart : e.Greedy ([] ++ order) := h
  refine hstart.lex_of_append hother ?_ hne
  rw [hlength, hother.perm.length_eq, List.length_finRange]

end UnitEdges

/-! ### Counters -/

namespace Placement

variable {n : Nat} {e : UnitEdges n} {p : Placement n}

/-- The moments between one placement and the next. -/
inductive Reached (e : UnitEdges n) : Placement n → Prop where
  | start : Reached e (start e)
  | place {p : Placement n} {i : Fin n} {rest : List (Fin n)} (h : Reached e p)
      (hready : p.ready = i :: rest) : Reached e (p.place e i rest)

/-- All that is reached from the beginning is sound. -/
theorem Reached.sound (h : Reached e p) : p.Sound e := by
  induction h with
  | start => exact sound_start e
  | place _ hready ih => exact ih.place hready

/-- What is placed to the end has been reached. -/
theorem Reached.run (h : Reached e p) : Reached e (p.run e) := by
  fun_induction Placement.run e p with
  | case1 p _ => exact h
  | case2 p i rest hready ih => exact ih (h.place hready)

/-- Whenever a counter is lowered, it is positive. -/
theorem Reached.counters_pos (h : Reached e p) {i : Fin n} {rest : List (Fin n)}
    (hready : p.ready = i :: rest) {done later : List (Fin n)} {j : Fin n}
    (hforward : e.forward.get i = done ++ j :: later) :
    0 < (done.foldl lower (p.take i rest)).counters.get j := by
  have hsound := h.sound
  have hnodup : (done ++ j :: later).Nodup := hforward ▸ e.nodup_forward i
  obtain ⟨hdone, -, hdisjoint⟩ := List.nodup_append.1 hnodup
  have hj : j ∉ done := fun hmem => hdisjoint j hmem j List.mem_cons_self rfl
  rw [counters_foldl_lower _ hdone, if_neg (mt List.contains_iff_mem.1 hj), counters_take,
    hsound.counters_eq j, missing_pos_iff]
  have hsource : i ∈ e.reverse.get j :=
    (e.mirror i j).1 (hforward ▸ List.mem_append_right _ List.mem_cons_self)
  exact ⟨i, hsource, (hsound.isReady_of_first hready).1.not_mem⟩

end Placement

/-! ### Lists of units -/

namespace UnitGraph

variable {units : List BuildUnit}

/-- One unit names another one as a dependency. -/
def Names (units : List BuildUnit) (id other : String) : Prop :=
  ∃ unit ∈ units, unit.id = id ∧ ∃ dependency ∈ unit.dependencies, dependency.unit = other

/-- All units have ids of their own, and all that they name is declared. -/
structure Declared (units : List BuildUnit) : Prop where
  nodup : (units.map (·.id)).Nodup
  dependencies : ∀ unit ∈ units, ∀ dependency ∈ unit.dependencies,
    dependency.unit ∈ units.map (·.id)
  modules : ∀ unit ∈ units, ∀ id ∈ unit.modules, id ∈ units.map (·.id)

/-- An order in which units can be built: each comes after those that it names as dependencies. -/
structure BuildOrder (units order : List BuildUnit) : Prop where
  perm : order.Perm units
  before : ∀ (pre post : List BuildUnit) (unit : BuildUnit), order = pre ++ unit :: post →
    ∀ dependency ∈ unit.dependencies, dependency.unit ∈ pre.map (·.id)

/-- The position of a unit in the order of declaration. -/
def position (units : List BuildUnit) (unit : BuildUnit) : Nat :=
  (units.map (·.id)).idxOf unit.id

/-- There is no duplicate exactly if no id comes twice or has been seen before. -/
theorem firstDuplicate?_eq_none_iff {seen ids : List String} :
    firstDuplicate? seen ids = none ↔ ids.Nodup ∧ ∀ id ∈ ids, id ∉ seen := by
  refine ⟨nodup_of_firstDuplicate?, ?_⟩
  rintro ⟨hnodup, hseen⟩
  induction ids generalizing seen with
  | nil => rfl
  | cons id rest ih =>
    obtain ⟨hid, hrest⟩ := List.nodup_cons.1 hnodup
    unfold firstDuplicate?
    rw [if_neg (hseen id List.mem_cons_self)]
    refine ih hrest fun other hother => ?_
    rw [List.mem_cons, not_or]
    refine ⟨?_, hseen other (List.mem_cons_of_mem _ hother)⟩
    rintro rfl
    exact hid hother

/-- Where units have ids of their own, an id has one position only. -/
theorem eq_of_id_eq (hnodup : (units.map (·.id)).Nodup) {i j : Fin units.length}
    (h : (units.get i).id = (units.get j).id) : i = j := by
  have hi : i.val < (units.map (·.id)).length := by simp
  have hj : j.val < (units.map (·.id)).length := by simp
  have heq : (units.map (·.id))[i.val] = (units.map (·.id))[j.val] := by simpa using h
  exact Fin.ext (hnodup.getElem_inj_iff.1 heq)

/-- What units name is what their edges lead to. -/
theorem names_iff (h : Declared units) {i : Fin units.length} {id : String} :
    Names units (units.get i).id id ↔
      ∃ j, (UnitEdges.ofUnits units).Needs i j ∧ (units.get j).id = id := by
  constructor
  · rintro ⟨unit, hunit, hid, dependency, hdependency, rfl⟩
    obtain ⟨k, hk, rfl⟩ := List.mem_iff_getElem.1 hunit
    obtain rfl : ⟨k, hk⟩ = i := eq_of_id_eq h.nodup hid
    obtain ⟨j, hj⟩ := UnitEdges.exists_position? (h.dependencies _ hunit dependency hdependency)
    exact ⟨j, UnitEdges.mem_reverse_ofUnits_iff.2 ⟨dependency, hdependency, hj⟩,
      UnitEdges.id_of_position? hj⟩
  · rintro ⟨j, hneeds, rfl⟩
    obtain ⟨dependency, hdependency, hj⟩ := UnitEdges.mem_reverse_ofUnits_iff.1 hneeds
    exact ⟨units.get i, List.getElem_mem _, rfl, dependency, hdependency,
      (UnitEdges.id_of_position? hj).symm⟩

/-- Names lead from one unit to another exactly if needs lead from position to position. -/
theorem transGen_names_iff (h : Declared units) {i : Fin units.length} {id : String} :
    TransGen (Names units) (units.get i).id id ↔
      ∃ j, TransGen (UnitEdges.ofUnits units).Needs i j ∧ (units.get j).id = id := by
  constructor
  · intro hpath
    induction hpath with
    | single hstep =>
      obtain ⟨j, hneeds, hid⟩ := (names_iff h).1 hstep
      exact ⟨j, .single hneeds, hid⟩
    | tail _ hstep ih =>
      obtain ⟨j, hneeds, rfl⟩ := ih
      obtain ⟨k, hlast, hid⟩ := (names_iff h).1 hstep
      exact ⟨k, hneeds.tail hlast, hid⟩
  · rintro ⟨j, hneeds, rfl⟩
    exact TransGen.lift (fun i => (units.get i).id)
      (fun i j hstep => (names_iff h).2 ⟨j, hstep, rfl⟩) _ _ hneeds

/-- There is no dangling reference exactly if all dependencies and modules are units. -/
theorem findSome?_dangling_eq_none_iff : (units.findSome? fun unit =>
      (danglingReference? (units.map (·.id)) unit).map (unit.id, ·)) = none ↔
    (∀ unit ∈ units, ∀ dependency ∈ unit.dependencies, dependency.unit ∈ units.map (·.id)) ∧
      ∀ unit ∈ units, ∀ id ∈ unit.modules, id ∈ units.map (·.id) := by
  simp only [List.findSome?_eq_none_iff, Option.map_eq_none_iff, danglingReference?_eq_none_iff]
  exact forall₂_and

/-- Units are declared exactly if there is neither a duplicate nor a dangling reference. -/
theorem declared_iff : Declared units ↔ firstDuplicate? [] (units.map (·.id)) = none ∧
    (units.findSome? fun unit =>
      (danglingReference? (units.map (·.id)) unit).map (unit.id, ·)) = none := by
  rw [findSome?_dangling_eq_none_iff, firstDuplicate?_eq_none_iff]
  constructor
  · exact fun h => ⟨⟨h.nodup, fun _ _ => List.not_mem_nil⟩, h.dependencies, h.modules⟩
  · exact fun ⟨⟨hnodup, _⟩, hdependencies, hmodules⟩ => ⟨hnodup, hdependencies, hmodules⟩

/-- A graph is made of declared units only. -/
theorem declared_of_ok {g : UnitGraph} (h : ofUnits units = .ok g) : Declared units := by
  unfold ofUnits at h
  simp only at h
  split at h
  next => cases h
  next hdup =>
    split at h
    next => cases h
    next hdangling => exact declared_iff.2 ⟨hdup, hdangling⟩

/-- Declared units are put into the order in which they have been placed, unless some are left
over. -/
theorem ofUnits_of_declared (h : Declared units) :
    ((UnitEdges.ofUnits units).placed.order.length = units.length ∧ ∃ g, ofUnits units = .ok g ∧
      g.units = units ∧ g.sorted = (UnitEdges.ofUnits units).placed.order.map units.get) ∨
    ((UnitEdges.ofUnits units).placed.order.length ≠ units.length ∧
      ofUnits units = .error (Fault.dependencyCycle
        ((UnitEdges.ofUnits units).leftovers.map fun i => (units.get i).id))) := by
  obtain ⟨hnone, hnone'⟩ := declared_iff.1 h
  unfold ofUnits
  simp only
  split
  next hdup =>
    rw [hnone] at hdup
    cases hdup
  next =>
    split
    next hdangling =>
      rw [hnone'] at hdangling
      cases hdangling
    next =>
      split
      next hlength => exact .inl ⟨hlength, _, rfl, rfl, rfl⟩
      next hlength => exact .inr ⟨hlength, rfl⟩

/-! ### Orders of units -/

/-- The position of a unit is where it stands. -/
theorem position_get (h : (units.map (·.id)).Nodup) (i : Fin units.length) :
    position units (units.get i) = i.val := by
  have hi : i.val < (units.map (·.id)).length := by simp
  have hidx := h.idxOf_getElem i.val hi
  rw [List.getElem_map] at hidx
  exact hidx

/-- Where units have ids of their own, no unit stands at two positions. -/
theorem injective_get (h : (units.map (·.id)).Nodup) : Function.Injective units.get :=
  fun _ _ heq => eq_of_id_eq h (congrArg BuildUnit.id heq)

/-- The positions of units in some order are those by which they were ordered. -/
theorem map_position (h : (units.map (·.id)).Nodup) (order : List (Fin units.length)) :
    (order.map units.get).map (position units) = order.map Fin.val := by
  rw [List.map_map]
  exact List.map_congr_left fun i _ => position_get h i

/-- Units come from positions. -/
theorem exists_map_eq {others : List BuildUnit} (h : ∀ unit ∈ others, unit ∈ units) :
    ∃ order : List (Fin units.length), order.map units.get = others := by
  induction others with
  | nil => exact ⟨[], rfl⟩
  | cons unit rest ih =>
    obtain ⟨hunit, hrest⟩ := List.forall_mem_cons.1 h
    obtain ⟨k, hk, rfl⟩ := List.mem_iff_getElem.1 hunit
    obtain ⟨order, rfl⟩ := ih hrest
    exact ⟨⟨k, hk⟩ :: order, rfl⟩

/-- Orders of units are orders of their positions. -/
theorem buildOrder_map_iff (h : Declared units) {order : List (Fin units.length)} :
    BuildOrder units (order.map units.get) ↔ (UnitEdges.ofUnits units).Respects order := by
  have hperm : (order.map units.get).Perm units ↔ order.Perm (List.finRange units.length) := by
    rw [← List.map_perm_map_iff (injective_get h.nodup), map_finRange]
  constructor
  · intro horder
    refine ⟨hperm.1 horder.perm, ?_⟩
    intro pre post i heq j hneeds
    obtain ⟨dependency, hdependency, hj⟩ := UnitEdges.mem_reverse_ofUnits_iff.1 hneeds
    have hmem := horder.before (pre.map units.get) (post.map units.get) (units.get i)
      (by rw [heq, List.map_append, List.map_cons]) dependency hdependency
    rw [List.map_map] at hmem
    obtain ⟨k, hk, hid⟩ := List.mem_map.1 hmem
    rwa [← eq_of_id_eq h.nodup (hid.trans (UnitEdges.id_of_position? hj).symm)]
  · intro horder
    refine ⟨hperm.2 horder.perm, ?_⟩
    intro pre post unit heq dependency hdependency
    obtain ⟨pre', rest, rfl, rfl, hrest⟩ := List.map_eq_append_iff.1 heq
    obtain ⟨i, post', rfl, rfl, rfl⟩ := List.map_eq_cons_iff.1 hrest
    obtain ⟨j, hj⟩ := UnitEdges.exists_position?
      (h.dependencies (units.get i) (List.getElem_mem _) dependency hdependency)
    have hmem := horder.before pre' post' i rfl j
      (UnitEdges.mem_reverse_ofUnits_iff.2 ⟨dependency, hdependency, hj⟩)
    rw [List.map_map, ← UnitEdges.id_of_position? hj]
    exact List.mem_map_of_mem (f := (·.id) ∘ units.get) hmem

/-- The order in which units are placed is an order in which they can be built, and in the order of
declaration it is less than all others. -/
theorem buildOrder_placed (h : Declared units)
    (hlength : (UnitEdges.ofUnits units).placed.order.length = units.length) :
    let sorted := (UnitEdges.ofUnits units).placed.order.map units.get
    BuildOrder units sorted ∧ ∀ other, BuildOrder units other → other ≠ sorted →
      List.Lex (· < ·) (sorted.map (position units)) (other.map (position units)) := by
  have hsound := (UnitEdges.ofUnits units).sound_placed
  refine ⟨(buildOrder_map_iff h).2 ⟨?_, ?_⟩, ?_⟩
  · exact UnitEdges.perm_finRange_of_nodup hsound.nodup_order hlength
  · exact fun pre post i heq => (hsound.greedy pre post i heq).1.reverse_subset
  · intro other hother hne
    obtain ⟨order, rfl⟩ := exists_map_eq fun unit hunit => hother.perm.mem_iff.1 hunit
    rw [map_position h.nodup, map_position h.nodup]
    refine hsound.greedy.lex hlength ((buildOrder_map_iff h).1 hother) ?_
    rintro rfl
    exact hne rfl

/-! ### Cycles -/

/-- Whatever names something stands at a position. -/
theorem exists_position_of_transGen {id other : String} (h : TransGen (Names units) id other) :
    ∃ i : Fin units.length, (units.get i).id = id := by
  obtain ⟨_, ⟨unit, hunit, hid, -⟩, -⟩ := TransGen.head'_iff.1 h
  obtain ⟨k, hk, rfl⟩ := List.mem_iff_getElem.1 hunit
  exact ⟨⟨k, hk⟩, hid⟩

/-- A unit is on a cycle of names exactly if its position is on a cycle of needs. -/
theorem cycle_names_iff (h : Declared units) {i : Fin units.length} :
    TransGen (Names units) (units.get i).id (units.get i).id ↔
      TransGen (UnitEdges.ofUnits units).Needs i i := by
  rw [transGen_names_iff h]
  constructor
  · rintro ⟨j, hcycle, hid⟩
    rwa [eq_of_id_eq h.nodup hid] at hcycle
  · exact fun hcycle => ⟨i, hcycle, rfl⟩

/-- All units can be placed if and only if they name each other without a cycle. -/
theorem length_placed_ofUnits_iff (h : Declared units) :
    (UnitEdges.ofUnits units).placed.order.length = units.length ↔
      ∀ id, ¬ TransGen (Names units) id id := by
  rw [UnitEdges.length_placed_iff]
  constructor
  · intro hnone id hcycle
    obtain ⟨i, rfl⟩ := exists_position_of_transGen hcycle
    exact hnone i ((cycle_names_iff h).1 hcycle)
  · exact fun hnone i hcycle => hnone _ ((cycle_names_iff h).2 hcycle)

/-- The units that are left over are those that lie on a cycle or depend on one. -/
theorem mem_leftovers_ids_iff (h : Declared units) {id : String} :
    id ∈ ((UnitEdges.ofUnits units).leftovers.map fun i => (units.get i).id) ↔
      ∃ other, ReflTransGen (Names units) id other ∧ TransGen (Names units) other other := by
  have hleft : ∀ i : Fin units.length, i ∈ (UnitEdges.ofUnits units).leftovers ↔
      ∃ j, ReflTransGen (UnitEdges.ofUnits units).Needs i j ∧
        TransGen (UnitEdges.ofUnits units).Needs j j := by
    intro i
    rw [UnitEdges.mem_leftovers_iff, UnitEdges.mem_placed_iff, not_not]
  rw [List.mem_map]
  constructor
  · rintro ⟨i, hi, rfl⟩
    obtain ⟨j, hpath, hcycle⟩ := (hleft i).1 hi
    refine ⟨(units.get j).id, ?_, (cycle_names_iff h).2 hcycle⟩
    rcases reflTransGen_iff_eq_or_transGen.1 hpath with rfl | hpath
    · exact .refl
    · exact ((transGen_names_iff h).2 ⟨j, hpath, rfl⟩).to_reflTransGen
  · rintro ⟨other, hpath, hcycle⟩
    rcases reflTransGen_iff_eq_or_transGen.1 hpath with rfl | hpath
    · obtain ⟨i, rfl⟩ := exists_position_of_transGen hcycle
      exact ⟨i, (hleft i).2 ⟨i, .refl, (cycle_names_iff h).1 hcycle⟩, rfl⟩
    · obtain ⟨i, rfl⟩ := exists_position_of_transGen hpath
      obtain ⟨j, hneeds, rfl⟩ := (transGen_names_iff h).1 hpath
      exact ⟨i, (hleft i).2 ⟨j, hneeds.to_reflTransGen, (cycle_names_iff h).1 hcycle⟩, rfl⟩

/-- The ids of the units that are left over are distinct. -/
theorem nodup_leftovers_ids (h : Declared units) :
    ((UnitEdges.ofUnits units).leftovers.map fun i => (units.get i).id).Nodup :=
  UnitEdges.nodup_leftovers.map fun _ _ => eq_of_id_eq h.nodup

/-! ### The construction -/

/-- Units can be put into build order if and only if they have ids of their own, all that they name
is declared, and no unit depends on itself, directly or through others. Then the order is one in
which they can be built, and it is less than all others in the order of declaration. If a cycle is
all that is wrong, the error names the units that lie on a cycle or depend on one, each once.

Whatever the units are, their edges are kept from both sides alike and each once, and no counter is
lowered that is zero. -/
theorem units_in_build_order (units : List BuildUnit) :
    let edges := UnitEdges.ofUnits units
    ((∃ g, ofUnits units = .ok g) ↔
      Declared units ∧ ∀ id, ¬ TransGen (Names units) id id) ∧
    (∀ g, ofUnits units = .ok g → g.units = units ∧ BuildOrder units g.sorted ∧
      ∀ other, BuildOrder units other → other ≠ g.sorted →
        List.Lex (· < ·) (g.sorted.map (position units)) (other.map (position units))) ∧
    (Declared units → (∃ id, TransGen (Names units) id id) →
      ∃ ids, ofUnits units = .error (Fault.dependencyCycle ids) ∧ ids.Nodup ∧
        ∀ id, id ∈ ids ↔
          ∃ other, ReflTransGen (Names units) id other ∧ TransGen (Names units) other other) ∧
    (∀ i j, (j ∈ edges.forward.get i ↔ i ∈ edges.reverse.get j) ∧
      (edges.forward.get i).Nodup ∧ (edges.reverse.get j).Nodup ∧
      (i ∈ edges.reverse.get j ↔ ∃ dependency ∈ (units.get j).dependencies,
        UnitEdges.position? units dependency.unit = some i)) ∧
    Placement.Reached edges edges.placed ∧
    ∀ p, Placement.Reached edges p → ∀ i rest, p.ready = i :: rest →
      ∀ done j later, edges.forward.get i = done ++ j :: later →
        0 < (done.foldl Placement.lower (p.take i rest)).counters.get j := by
  intro edges
  refine ⟨⟨?_, ?_⟩, ?_, ?_, ?_, Placement.Reached.start.run, ?_⟩
  · rintro ⟨g, hg⟩
    have hdeclared := declared_of_ok hg
    refine ⟨hdeclared, (length_placed_ofUnits_iff hdeclared).1 ?_⟩
    rcases ofUnits_of_declared hdeclared with ⟨hlength, -⟩ | ⟨-, herror⟩
    · exact hlength
    · rw [hg] at herror
      cases herror
  · rintro ⟨hdeclared, hnone⟩
    rcases ofUnits_of_declared hdeclared with ⟨-, g, hg, -⟩ | ⟨hlength, -⟩
    · exact ⟨g, hg⟩
    · exact absurd ((length_placed_ofUnits_iff hdeclared).2 hnone) hlength
  · intro g hg
    have hdeclared := declared_of_ok hg
    rcases ofUnits_of_declared hdeclared with ⟨hlength, g', hg', hunits, hsorted⟩ | ⟨-, herror⟩
    · obtain rfl : g = g' := Except.ok.inj (hg.symm.trans hg')
      rw [hsorted]
      exact ⟨hunits, buildOrder_placed hdeclared hlength⟩
    · rw [hg] at herror
      cases herror
  · rintro hdeclared ⟨id, hcycle⟩
    rcases ofUnits_of_declared hdeclared with ⟨hlength, -⟩ | ⟨-, herror⟩
    · exact absurd hcycle ((length_placed_ofUnits_iff hdeclared).1 hlength id)
    · exact ⟨_, herror, nodup_leftovers_ids hdeclared, fun _ => mem_leftovers_ids_iff hdeclared⟩
  · exact fun i j => ⟨edges.mirror i j, edges.nodup_forward i, edges.nodup_reverse j,
      UnitEdges.mem_reverse_ofUnits_iff⟩
  · exact fun p hp i rest hready done j later hforward => hp.counters_pos hready hforward

end UnitGraph

end PhasedBuild
