import PhasedBuild.Units.Edges

/-!
# Build order

The units are placed one after the other. Each has a counter: how many of the units that it depends
on have not been placed. Those whose counter is zero are ready, and the first of them in the order
of declaration is placed next.

* `Placement.run` places units until none is ready.
* `UnitEdges.placed` is what it comes to for given edges, and `UnitEdges.leftovers` are the units
  that it leaves over.
* `Placement.Sound` is what holds at every moment: it is so at the start, and every placement keeps
  it (`Placement.Sound.place`).
-/

namespace PhasedBuild

/-- How far units have been placed. -/
structure Placement (n : Nat) where
  /-- For each unit the number of units that it depends on and that have not been placed. -/
  counters : Vector Nat n
  /-- The units that can be placed next, in the order of their declaration. -/
  ready : List (Fin n)
  /-- The units that have been placed, in order. -/
  order : List (Fin n) := []

namespace Placement

variable {n : Nat}

/-- Puts a unit among the ones that are ready. -/
def insertReady (i : Fin n) : List (Fin n) → List (Fin n)
  | [] => [i]
  | j :: rest =>
    if i = j then j :: rest
    else if i < j then i :: j :: rest
    else j :: insertReady i rest

/-- Lowers the counter of a unit, unless it is zero. When it comes to zero the unit is ready. -/
def lower (p : Placement n) (i : Fin n) : Placement n :=
  match p.counters.get i with
  | 0 => p
  | count + 1 =>
    { p with
      counters := p.counters.set i count i.isLt
      ready := if count = 0 then insertReady i p.ready else p.ready }

/-- Takes a unit from those that are ready, which leaves the others. -/
def take (p : Placement n) (i : Fin n) (rest : List (Fin n)) : Placement n :=
  { p with ready := rest, order := p.order ++ [i] }

@[simp] theorem counters_take (p : Placement n) (i : Fin n) (rest : List (Fin n)) :
    (p.take i rest).counters = p.counters :=
  rfl

/-- Places the first unit that is ready: the counters of the units that depend on it are lowered. -/
def place (e : UnitEdges n) (p : Placement n) (i : Fin n) (rest : List (Fin n)) : Placement n :=
  (e.forward.get i).foldl lower (p.take i rest)

/-- How much can still be done: counters can be lowered and units placed. -/
def pending (p : Placement n) : Nat :=
  p.counters.toList.foldr (· + ·) 0 + p.ready.length

/-! ### Ready units -/

/-- Inserting a position adds it to those that are ready. -/
@[simp] theorem mem_insertReady {i j : Fin n} {ready : List (Fin n)} :
    j ∈ insertReady i ready ↔ j = i ∨ j ∈ ready := by
  induction ready with
  | nil => simp [insertReady]
  | cons first rest ih =>
    unfold insertReady
    split
    next h => simp [h]
    next =>
      split
      next => simp
      next => simp [ih, or_left_comm]

/-- Inserting a position adds one at most. -/
theorem length_insertReady_le (i : Fin n) (ready : List (Fin n)) :
    (insertReady i ready).length ≤ ready.length + 1 := by
  induction ready with
  | nil => simp [insertReady]
  | cons first rest ih =>
    unfold insertReady
    split
    next => simp
    next =>
      split
      next => simp
      next => simpa using ih

/-- Positions that are ready stay in order. -/
theorem pairwise_insertReady {i : Fin n} {ready : List (Fin n)} (h : ready.Pairwise (· < ·)) :
    (insertReady i ready).Pairwise (· < ·) := by
  induction ready with
  | nil => exact List.pairwise_singleton _ _
  | cons first rest ih =>
    obtain ⟨hfirst, hrest⟩ := List.pairwise_cons.1 h
    unfold insertReady
    split
    next => exact h
    next hne =>
      split
      next hlt =>
        refine List.pairwise_cons.2 ⟨fun j hj => ?_, h⟩
        rcases List.mem_cons.1 hj with rfl | hj
        · exact hlt
        · have hfirst := hfirst j hj
          omega
      next hnot =>
        refine List.pairwise_cons.2 ⟨fun j hj => ?_, ih hrest⟩
        rcases mem_insertReady.1 hj with rfl | hj
        · omega
        · exact hfirst j hj

/-! ### Lowering counters -/

/-- A changed counter changes the sum by as much. -/
theorem foldr_set_add {counts : List Nat} {i : Nat} (hi : i < counts.length) (count : Nat) :
    (counts.set i count).foldr (· + ·) 0 + counts[i] = counts.foldr (· + ·) 0 + count := by
  induction counts generalizing i with
  | nil => cases hi
  | cons first rest ih =>
    cases i with
    | zero =>
      simp only [List.set_cons_zero, List.foldr_cons, List.getElem_cons_zero]
      omega
    | succ i =>
      have hrest := ih (Nat.lt_of_succ_lt_succ hi)
      simp only [List.set_cons_succ, List.foldr_cons, List.getElem_cons_succ]
      omega

/-- Lowering a counter leaves no more to be done. -/
theorem pending_lower_le (p : Placement n) (i : Fin n) : (p.lower i).pending ≤ p.pending := by
  unfold lower
  split
  next => exact Nat.le_refl _
  next count hcount =>
    have hlt : i.val < p.counters.toList.length := by simp
    have hsum := foldr_set_add hlt count
    have hget : p.counters[i.val] = count + 1 := hcount
    rw [Vector.getElem_toList, hget] at hsum
    have hlength := length_insertReady_le i p.ready
    simp only [pending, Vector.toList_set]
    split <;> omega

/-- Lowering counters leaves no more to be done. -/
theorem pending_foldl_lower_le (p : Placement n) (targets : List (Fin n)) :
    (targets.foldl lower p).pending ≤ p.pending := by
  induction targets generalizing p with
  | nil => exact Nat.le_refl _
  | cons i rest ih => exact Nat.le_trans (ih _) (p.pending_lower_le i)

/-- Placing a unit leaves less to be done. -/
theorem pending_place_lt (e : UnitEdges n) {p : Placement n} {i : Fin n} {rest : List (Fin n)}
    (h : p.ready = i :: rest) : (p.place e i rest).pending < p.pending := by
  refine Nat.lt_of_le_of_lt (pending_foldl_lower_le _ _) ?_
  simp [pending, take, h]

/-- Places units until none is ready. -/
def run (e : UnitEdges n) (p : Placement n) : Placement n :=
  match _h : p.ready with
  | [] => p
  | i :: rest => run e (p.place e i rest)
termination_by p.pending
decreasing_by exact pending_place_lt e _h

/-- Before any unit is placed. -/
def start (e : UnitEdges n) : Placement n :=
  let counters := e.reverse.map List.length
  { counters, ready := (List.finRange n).filter fun i => counters.get i = 0 }

/-- Lowering a counter takes one from it and nothing from the others. -/
theorem counters_lower (p : Placement n) (i j : Fin n) :
    (p.lower i).counters.get j = if i = j then p.counters.get j - 1 else p.counters.get j := by
  unfold lower
  split
  next hzero =>
    split
    next heq => rw [← heq, hzero]
    next => rfl
  next count hcount =>
    show (p.counters.set i count i.isLt).get j = _
    rw [UnitEdges.get_set]
    split
    next heq =>
      rw [← heq, hcount]
      rfl
    next => rfl

@[simp] theorem order_lower (p : Placement n) (i : Fin n) : (p.lower i).order = p.order := by
  unfold lower
  split <;> rfl

/-- A unit gets ready when its counter was at one. -/
theorem mem_ready_lower {p : Placement n} {i j : Fin n} :
    j ∈ (p.lower i).ready ↔ j ∈ p.ready ∨ j = i ∧ p.counters.get j = 1 := by
  unfold lower
  split
  next hzero =>
    constructor
    · exact .inl
    · rintro (hready | ⟨rfl, hone⟩)
      · exact hready
      · omega
  next count hcount =>
    simp only
    split
    next hc =>
      rw [mem_insertReady, or_comm]
      refine or_congr_right ⟨fun heq => ⟨heq, ?_⟩, And.left⟩
      rw [heq, hcount, hc]
    next hc =>
      constructor
      · exact .inl
      · rintro (hready | ⟨rfl, hone⟩)
        · exact hready
        · omega

/-- Lowering a counter keeps the ready units in order. -/
theorem pairwise_lower {p : Placement n} (h : p.ready.Pairwise (· < ·)) (i : Fin n) :
    (p.lower i).ready.Pairwise (· < ·) := by
  unfold lower
  split
  next => exact h
  next =>
    simp only
    split
    next => exact pairwise_insertReady h
    next => exact h

section folding

variable {targets : List (Fin n)} (p : Placement n)

@[simp] theorem order_foldl_lower : (targets.foldl lower p).order = p.order := by
  induction targets generalizing p with
  | nil => rfl
  | cons i rest ih => rw [List.foldl_cons, ih, order_lower]

/-- Lowering counters keeps the ready units in order. -/
theorem pairwise_foldl_lower (h : p.ready.Pairwise (· < ·)) :
    (targets.foldl lower p).ready.Pairwise (· < ·) := by
  induction targets generalizing p with
  | nil => exact h
  | cons i rest ih => exact ih _ (pairwise_lower h i)

/-- Distinct targets have their counters lowered once. -/
theorem counters_foldl_lower (h : targets.Nodup) (j : Fin n) :
    (targets.foldl lower p).counters.get j =
      if targets.contains j then p.counters.get j - 1 else p.counters.get j := by
  induction targets generalizing p with
  | nil => simp
  | cons i rest ih =>
    obtain ⟨hi, hrest⟩ := List.nodup_cons.1 h
    rw [List.foldl_cons, ih _ hrest, counters_lower]
    by_cases heq : i = j
    · subst heq
      simp [hi]
    · simp [heq, Ne.symm heq]

/-- The targets whose counters were at one get ready. -/
theorem mem_ready_foldl_lower (h : targets.Nodup) {j : Fin n} :
    j ∈ (targets.foldl lower p).ready ↔ j ∈ p.ready ∨ j ∈ targets ∧ p.counters.get j = 1 := by
  induction targets generalizing p with
  | nil => simp
  | cons i rest ih =>
    obtain ⟨hi, hrest⟩ := List.nodup_cons.1 h
    rw [List.foldl_cons, ih _ hrest, mem_ready_lower, counters_lower, List.mem_cons]
    by_cases heq : i = j
    · subst heq
      simp [hi]
    · simp [heq, Ne.symm heq]

end folding

end Placement

namespace UnitEdges

variable {n : Nat} (e : UnitEdges n)

/-- A unit that can come next after placed ones. -/
structure IsReady (placed : List (Fin n)) (i : Fin n) : Prop where
  not_mem : i ∉ placed
  reverse_subset : ∀ source ∈ e.reverse.get i, source ∈ placed

/-- Each unit of an order can come next after those before it, and it is the first such unit in the
order of declaration. -/
def Greedy (order : List (Fin n)) : Prop :=
  ∀ (pre post : List (Fin n)) (i : Fin n), order = pre ++ i :: post →
    e.IsReady pre i ∧ ∀ j, e.IsReady pre j → i ≤ j

variable {e} {order pre post : List (Fin n)} {i : Fin n}

/-- A greedy order goes on with the least unit that is ready. -/
theorem Greedy.concat (h : e.Greedy order) (hi : e.IsReady order i)
    (hleast : ∀ j, e.IsReady order j → i ≤ j) : e.Greedy (order ++ [i]) := by
  intro pre post j heq
  rcases List.eq_nil_or_concat post with rfl | ⟨post, last, rfl⟩
  · obtain ⟨rfl, hj⟩ := List.append_inj' heq rfl
    obtain rfl := List.singleton_inj.1 hj
    exact ⟨hi, hleast⟩
  · rw [List.concat_eq_append, ← List.cons_append, ← List.append_assoc] at heq
    exact h pre post j (List.append_inj' heq rfl).1

/-- What an order has a unit depend on is in the order. -/
theorem Greedy.mem_of_mem_reverse (h : e.Greedy order) (hi : i ∈ order) {source : Fin n}
    (hsource : source ∈ e.reverse.get i) : source ∈ order := by
  obtain ⟨pre, post, rfl⟩ := List.append_of_mem hi
  exact List.mem_append_left _ ((h pre post i rfl).1.reverse_subset source hsource)

/-- An order of all units has each of them once. -/
theorem perm_finRange_of_nodup (hnodup : order.Nodup) (hlength : order.length = n) :
    order.Perm (List.finRange n) := by
  have hfilter : ((List.finRange n).filter fun i => order.contains i).Perm order := by
    refine (List.perm_ext_iff_of_nodup ((List.nodup_finRange n).sublist List.filter_sublist)
      hnodup).2 fun i => ?_
    simp
  have hall := List.length_filter_eq_length_iff.1
    (hfilter.length_eq.trans (hlength.trans List.length_finRange.symm))
  refine (List.perm_ext_iff_of_nodup hnodup (List.nodup_finRange n)).2 fun i => ?_
  have hi := hall i (List.mem_finRange i)
  simpa using hi

end UnitEdges

namespace Placement

variable {n : Nat} {e : UnitEdges n} {p : Placement n}

/-- How many of the units that one depends on are not among the placed ones. -/
def missing (order sources : List (Fin n)) : Nat :=
  sources.countP fun source => !order.contains source

/-- In the beginning all sources are missing. -/
theorem missing_nil (sources : List (Fin n)) : missing [] sources = sources.length := by
  simp [missing]

/-- A source that has been placed is not missing. -/
theorem missing_cons_of_mem {order : List (Fin n)} {source : Fin n} (h : source ∈ order)
    (rest : List (Fin n)) : missing order (source :: rest) = missing order rest :=
  List.countP_cons_of_neg (by simp [h])

/-- A source that has not been placed is missing. -/
theorem missing_cons_of_notMem {order : List (Fin n)} {source : Fin n} (h : source ∉ order)
    (rest : List (Fin n)) : missing order (source :: rest) = missing order rest + 1 :=
  List.countP_cons_of_pos (by simp [h])

/-- Sources are missing exactly if one of them has not been placed. -/
theorem missing_pos_iff {order sources : List (Fin n)} :
    0 < missing order sources ↔ ∃ source ∈ sources, source ∉ order := by
  simp [missing, List.countP_pos_iff]

/-- No source is missing exactly if all of them have been placed. -/
theorem missing_eq_zero_iff {order sources : List (Fin n)} :
    missing order sources = 0 ↔ ∀ source ∈ sources, source ∈ order := by
  simp [missing, List.countP_eq_zero]

/-- When a unit is placed, those are one fewer that a unit depends on and that are not placed, if it
depends on the placed one. -/
theorem missing_concat {order sources : List (Fin n)} (h : sources.Nodup) {i : Fin n}
    (hi : i ∉ order) : missing order sources =
      missing (order ++ [i]) sources + if sources.contains i then 1 else 0 := by
  induction sources with
  | nil => rfl
  | cons first rest ih =>
    obtain ⟨hfirst, hrest⟩ := List.nodup_cons.1 h
    have hcount := ih hrest
    by_cases heq : first = i
    · subst heq
      have hmem : first ∈ order ++ [first] := List.mem_append_right _ List.mem_cons_self
      rw [missing_cons_of_notMem hi, missing_cons_of_mem hmem, hcount]
      simp [hfirst]
    · have hcontains : (first :: rest).contains i = rest.contains i := by simp [Ne.symm heq]
      by_cases hmem : first ∈ order
      · rw [missing_cons_of_mem hmem, missing_cons_of_mem (List.mem_append_left _ hmem), hcount,
          hcontains]
      · have hnot : first ∉ order ++ [i] := by simp [hmem, heq]
        rw [missing_cons_of_notMem hmem, missing_cons_of_notMem hnot, hcount, hcontains]
        omega

/-- What holds at every moment while units are placed. -/
structure Sound (e : UnitEdges n) (p : Placement n) : Prop where
  nodup_order : p.order.Nodup
  greedy : e.Greedy p.order
  counters_eq : ∀ i : Fin n, p.counters.get i = missing p.order (e.reverse.get i)
  mem_ready_iff : ∀ i, i ∈ p.ready ↔ e.IsReady p.order i
  pairwise_ready : p.ready.Pairwise (· < ·)

/-- In the beginning a counter has the number of sources. -/
theorem counters_start (e : UnitEdges n) (i : Fin n) :
    (start e).counters.get i = (e.reverse.get i).length := by
  show (e.reverse.map List.length)[i.val] = e.reverse[i.val].length
  rw [Vector.getElem_map]

/-- The beginning is sound. -/
theorem sound_start (e : UnitEdges n) : (start e).Sound e where
  nodup_order := List.nodup_nil
  greedy := by
    intro pre post i heq
    exact absurd heq.symm (List.append_ne_nil_of_right_ne_nil _ (List.cons_ne_nil _ _))
  counters_eq := by
    intro i
    exact (counters_start e i).trans (missing_nil _).symm
  mem_ready_iff := by
    intro i
    have hready : i ∈ (start e).ready ↔ e.reverse.get i = [] := by
      rw [← List.length_eq_zero_iff, ← counters_start]
      simp [start]
    rw [hready]
    constructor
    · intro hnil
      refine ⟨List.not_mem_nil, fun source hsource => ?_⟩
      rw [hnil] at hsource
      exact hsource
    · rintro ⟨-, hsubset⟩
      exact List.eq_nil_iff_forall_not_mem.2 fun source hsource =>
        List.not_mem_nil (hsubset source hsource)
  pairwise_ready := (List.pairwise_lt_finRange n).sublist List.filter_sublist

section placing

variable {i : Fin n} {rest : List (Fin n)}

/-- The first of the ready units is the least of all that are ready. -/
theorem Sound.isReady_of_first (h : p.Sound e) (hready : p.ready = i :: rest) :
    e.IsReady p.order i ∧ ∀ j, e.IsReady p.order j → j = i ∨ j ∈ rest ∧ i < j := by
  have hsorted := h.pairwise_ready
  rw [hready] at hsorted
  refine ⟨(h.mem_ready_iff i).1 (hready ▸ List.mem_cons_self), fun j hj => ?_⟩
  have hmem := (h.mem_ready_iff j).2 hj
  rw [hready, List.mem_cons] at hmem
  exact hmem.imp_right fun hrest => ⟨hrest, (List.pairwise_cons.1 hsorted).1 j hrest⟩

/-- After a unit has been placed, counters tell how many sources are missing. -/
theorem Sound.counters_place (h : p.Sound e) (hready : p.ready = i :: rest) (j : Fin n) :
    (p.place e i rest).counters.get j = missing (p.order ++ [i]) (e.reverse.get j) := by
  have hfirst := (h.isReady_of_first hready).1
  have hcount := missing_concat (e.nodup_reverse j) hfirst.not_mem
  unfold Placement.place
  rw [counters_foldl_lower _ (e.nodup_forward i)]
  simp only [counters_take, List.contains_iff_mem, e.mirror i j, h.counters_eq j, hcount]
  split <;> omega

/-- After a unit has been placed, the list has just the units that are ready. -/
theorem Sound.mem_ready_place (h : p.Sound e) (hready : p.ready = i :: rest) (j : Fin n) :
    j ∈ (p.place e i rest).ready ↔ e.IsReady (p.order ++ [i]) j := by
  obtain ⟨hfirst, hothers⟩ := h.isReady_of_first hready
  have hcount := missing_concat (e.nodup_reverse j) hfirst.not_mem
  have hsorted := h.pairwise_ready
  rw [hready] at hsorted
  unfold Placement.place
  rw [mem_ready_foldl_lower _ (e.nodup_forward i), e.mirror i j]
  simp only [counters_take, h.counters_eq j]
  constructor
  · rintro (hrest | ⟨hsource, hone⟩)
    · have hj := (h.mem_ready_iff j).1 (hready ▸ List.mem_cons_of_mem _ hrest)
      have hlt := (List.pairwise_cons.1 hsorted).1 j hrest
      refine ⟨?_, fun source hsource => List.mem_append_left _ (hj.reverse_subset source hsource)⟩
      rw [List.mem_append, List.mem_singleton]
      rintro (hmem | rfl)
      · exact hj.not_mem hmem
      · exact absurd hlt (Nat.lt_irrefl _)
    · refine ⟨?_, fun source hmem => ?_⟩
      · rw [List.mem_append, List.mem_singleton]
        rintro (hmem | rfl)
        · exact hfirst.not_mem (h.greedy.mem_of_mem_reverse hmem hsource)
        · exact hfirst.not_mem (hfirst.reverse_subset _ hsource)
      · -- Only one was missing, which is the one that is placed now.
        rw [if_pos (List.contains_iff_mem.2 hsource)] at hcount
        have hzero : missing (p.order ++ [i]) (e.reverse.get j) = 0 := by omega
        exact missing_eq_zero_iff.1 hzero source hmem
  · rintro ⟨hnot, hsubset⟩
    rw [List.mem_append, List.mem_singleton, not_or] at hnot
    by_cases hsource : i ∈ e.reverse.get j
    · right
      have hzero : missing (p.order ++ [i]) (e.reverse.get j) = 0 :=
        missing_eq_zero_iff.2 hsubset
      rw [if_pos (List.contains_iff_mem.2 hsource), hzero] at hcount
      exact ⟨hsource, hcount⟩
    · left
      have hj : e.IsReady p.order j := by
        refine ⟨hnot.1, fun source hmem => ?_⟩
        rcases List.mem_append.1 (hsubset source hmem) with hmem' | hmem'
        · exact hmem'
        · rw [List.mem_singleton.1 hmem'] at hmem
          exact absurd hmem hsource
      exact ((hothers j hj).resolve_left hnot.2).1

/-- Placing a unit keeps what holds. -/
theorem Sound.place (h : p.Sound e) (hready : p.ready = i :: rest) :
    (p.place e i rest).Sound e := by
  obtain ⟨hfirst, hothers⟩ := h.isReady_of_first hready
  have horder : (p.place e i rest).order = p.order ++ [i] := order_foldl_lower _
  have hrest : rest.Pairwise (· < ·) := (List.pairwise_cons.1 (hready ▸ h.pairwise_ready)).2
  constructor
  · rw [horder, List.nodup_append]
    refine ⟨h.nodup_order, List.pairwise_singleton _ _, fun j hj k hk heq => ?_⟩
    rw [heq, List.mem_singleton.1 hk] at hj
    exact hfirst.not_mem hj
  · rw [horder]
    refine h.greedy.concat hfirst fun j hj => ?_
    rcases hothers j hj with rfl | ⟨-, hlt⟩
    · exact Nat.le_refl _
    · exact Nat.le_of_lt hlt
  · rw [horder]
    exact h.counters_place hready
  · rw [horder]
    exact h.mem_ready_place hready
  · exact pairwise_foldl_lower _ hrest

end placing

/-- Placing units keeps what holds, and in the end none is ready. -/
theorem Sound.run (h : p.Sound e) : (p.run e).Sound e ∧ (p.run e).ready = [] := by
  fun_induction Placement.run e p with
  | case1 p hnil => exact ⟨h, hnil⟩
  | case2 p i rest hready ih => exact ih (h.place hready)

end Placement

namespace UnitEdges

variable {n : Nat} (e : UnitEdges n)

/-- The units that can be placed, in build order. -/
def placed : Placement n :=
  (Placement.start e).run e

/-- The end is sound. -/
theorem sound_placed : e.placed.Sound e :=
  (Placement.sound_start e).run.1

/-- In the end no unit is ready. -/
theorem ready_placed : e.placed.ready = [] :=
  (Placement.sound_start e).run.2

/-- The units whose counters have not come to zero. -/
def leftovers : List (Fin n) :=
  (List.finRange n).filter fun i => 0 < e.placed.counters.get i

end UnitEdges

end PhasedBuild
