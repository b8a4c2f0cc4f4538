import Mathlib.Data.List.Nodup
import Mathlib.Data.List.TakeWhile
import PhasedBuild.Lifecycle.Registry
import PhasedBuild.Proofs.Keyed

/-!
# What a registry keeps

A registry holds its lifecycles in a list and three tables beside it: which position claims a name,
which execution point an older name stands for, and the order of each lifecycle. Positions change
when a lifecycle is taken out, so the tables are made anew then.

* `LifecycleRegistry.Indexes`: the tables of names and aliases hold what some lifecycles declare and
  nothing else. `Indexes.indexAll` makes them anew for any lifecycles that claim no name twice.
* `LifecycleRegistry.Sound` holds after any registrations, also refused ones. A refused lifecycle
  may leave claims behind for the position that it did not get.
* `LifecycleRegistry.Settled` holds as long as no registration is refused: there are no such claims.
* `LifecycleRegistry.Sound.register_eq` and `LifecycleRegistry.add_cases`: all that a registration
  can come to.
-/

namespace PhasedBuild

/-! ### Aliases -/

/-- The execution point that aliases give to a name; of several for one name the last counts. -/
def Alias.target? (aliases : List Alias) (name : String) : Option PhaseRef :=
  (aliases.reverse.find? (·.legacy == name)).map fun a => PhaseRef.parse a.target

/-- Of two lists of aliases, the second one counts first. -/
theorem Alias.target?_append (first second : List Alias) (name : String) :
    target? (first ++ second) name = (target? second name).or (target? first name) := by
  rw [target?, List.reverse_append, List.find?_append]
  cases h : second.reverse.find? (·.legacy == name) <;> simp [target?, h]

namespace LifecycleRegistry

/-- A table of aliases to which others have been added. -/
def taught (aliases : List Alias) (table : List (String × PhaseRef)) : List (String × PhaseRef) :=
  aliases.foldl (fun table a => Keyed.insert a.legacy (PhaseRef.parse a.target) table) table

/-- Added aliases count before those that are in the table. -/
theorem find?_taught (aliases : List Alias) (table : List (String × PhaseRef)) (name : String) :
    Keyed.find? name (taught aliases table) =
      (Alias.target? aliases name).or (Keyed.find? name table) := by
  induction aliases generalizing table with
  | nil => rfl
  | cons a rest ih =>
    show Keyed.find? name (taught rest (Keyed.insert a.legacy (PhaseRef.parse a.target) table)) =
      (Alias.target? ([a] ++ rest) name).or _
    rw [ih, Alias.target?_append, Option.or_assoc]
    congr 1
    by_cases h : name = a.legacy
    · subst h
      rw [Keyed.find?_insert_self]
      simp [Alias.target?]
    · rw [Keyed.find?_insert_of_ne h]
      simp [Alias.target?, Ne.symm h]

/-! ### Claims -/

/-- A table of claims to which names have been added for a position. -/
def claimed (position : Nat) (names : List String) (owners : List (String × Nat)) :
    List (String × Nat) :=
  names.foldl (fun table name => Keyed.insert name position table) owners

/-- Claimed names belong to the position for which they have been claimed, and all others to whom
they did. -/
theorem find?_claimed (position : Nat) (names : List String) (owners : List (String × Nat))
    (name : String) : Keyed.find? name (claimed position names owners) =
      if name ∈ names then some position else Keyed.find? name owners := by
  induction names generalizing owners with
  | nil => rfl
  | cons first rest ih =>
    show Keyed.find? name (claimed position rest (Keyed.insert first position owners)) = _
    rw [ih]
    by_cases hrest : name ∈ rest
    · simp [hrest]
    · by_cases hfirst : name = first
      · simp [hfirst]
      · simp [hrest, hfirst, Keyed.find?_insert_of_ne hfirst]

/-- Claiming names keeps the table in order. -/
theorem isSorted_claimed {owners : List (String × Nat)} (h : Keyed.IsSorted owners)
    (position : Nat) (names : List String) : Keyed.IsSorted (claimed position names owners) := by
  induction names generalizing owners with
  | nil => exact h
  | cons first rest ih => exact ih (h.insert first position)

variable {r : LifecycleRegistry} {position : Nat} {names : List String}

/-- Whether a name does not belong to a lifecycle at another position. -/
def isFree (r : LifecycleRegistry) (position : Nat) (name : String) : Bool :=
  (Keyed.find? name r.owners).all (· == position)

/-- A name is free for a position unless it belongs to another one. -/
theorem isFree_iff {name : String} : r.isFree position name = true ↔
    ∀ owner, Keyed.find? name r.owners = some owner → owner = position := by
  simp [isFree, Option.all_eq_true]

/-- The registry in which names have been claimed for a position. -/
def withClaims (r : LifecycleRegistry) (position : Nat) (names : List String) :
    LifecycleRegistry :=
  { r with owners := claimed position names r.owners }

/-- A claim changes nothing for the position that makes it. -/
theorem isFree_withClaims {name : String} (h : r.isFree position name = true) :
    (r.withClaims position [name]).isFree position = r.isFree position := by
  funext other
  by_cases hother : other = name
  · subst hother
    simp [isFree, withClaims, claimed, h.symm]
  · simp [isFree, withClaims, claimed, Keyed.find?_insert_of_ne hother]

/-- Names are claimed up to the first that is not free. -/
theorem claim_cases (r : LifecycleRegistry) (position : Nat) (id : String) (names : List String) :
    (∀ name ∈ names, r.isFree position name = true) ∧
      r.claim position id names = (r.withClaims position names, .ok ()) ∨
    (¬ ∀ name ∈ names, r.isFree position name = true) ∧ ∃ fault,
      r.claim position id names =
        (r.withClaims position (names.takeWhile (r.isFree position)), .error fault) := by
  induction names generalizing r with
  | nil => exact .inl ⟨fun _ h => absurd h List.not_mem_nil, rfl⟩
  | cons name rest ih =>
    have hfilter : (Keyed.find? name r.owners).filter (· ≠ position) = none ↔
        r.isFree position name = true := by
      cases h : Keyed.find? name r.owners <;> simp [isFree, h]
    unfold claim
    split
    next owner howner =>
      have hname : r.isFree position name = false := by
        rw [← Bool.not_eq_true, ← hfilter, howner]
        simp
      refine .inr ⟨fun h => absurd (h name List.mem_cons_self) (by simp [hname]), ?_⟩
      rw [List.takeWhile_cons_of_neg (by simp [hname])]
      exact ⟨_, rfl⟩
    next hnone =>
      have hname := hfilter.1 hnone
      have hsame := isFree_withClaims hname
      rw [List.forall_mem_cons, List.takeWhile_cons_of_pos hname, ← hsame]
      rcases ih (r.withClaims position [name]) with ⟨hfree, heq⟩ | ⟨htaken, fault, heq⟩
      · exact .inl ⟨⟨by rwa [hsame], hfree⟩, heq⟩
      · exact .inr ⟨fun h => htaken h.2, fault, heq⟩

/-! ### Lifecycles and their tables -/

/-- The registry in which the names of a lifecycle are claimed and its aliases taken. -/
def indexed (r : LifecycleRegistry) (position : Nat) (l : Lifecycle) : LifecycleRegistry :=
  { r.withClaims position l.claimedNames with aliases := taught l.aliases r.aliases }

/-- A lifecycle is indexed whole if all its names are free. Otherwise the names before the first
taken one stay claimed, and nothing else is changed. -/
theorem index_cases (r : LifecycleRegistry) (position : Nat) (l : Lifecycle) :
    (∀ name ∈ l.claimedNames, r.isFree position name = true) ∧
      r.index position l = (r.indexed position l, .ok ()) ∨
    (¬ ∀ name ∈ l.claimedNames, r.isFree position name = true) ∧ ∃ fault,
      r.index position l =
        (r.withClaims position (l.claimedNames.takeWhile (r.isFree position)), .error fault) := by
  rcases r.claim_cases position l.id l.claimedNames with ⟨hfree, heq⟩ | ⟨htaken, fault, heq⟩
  · exact .inl ⟨hfree, by rw [index, heq]; rfl⟩
  · exact .inr ⟨htaken, fault, by rw [index, heq]⟩

/-- No two lifecycles claim the same name. -/
def Apart (lifecycles : List Lifecycle) : Prop :=
  lifecycles.Pairwise fun a b => a.claimedNames.Disjoint b.claimedNames

/-- The tables of names and aliases hold what lifecycles declare and nothing else. -/
structure Indexes (r : LifecycleRegistry) (lifecycles : List Lifecycle) : Prop where
  sorted : Keyed.IsSorted r.owners
  owner_iff : ∀ name i, Keyed.find? name r.owners = some i ↔
    ∃ l, lifecycles[i]? = some l ∧ name ∈ l.claimedNames
  alias_eq : ∀ name, Keyed.find? name r.aliases =
    Alias.target? (lifecycles.flatMap (·.aliases)) name

variable {lifecycles : List Lifecycle} {l : Lifecycle}

/-- Names are free for the next position if no lifecycle claims them. -/
theorem Indexes.isFree_iff (h : r.Indexes lifecycles) :
    (∀ name ∈ names, r.isFree lifecycles.length name = true) ↔
      ∀ other ∈ lifecycles, names.Disjoint other.claimedNames := by
  simp only [LifecycleRegistry.isFree_iff]
  constructor
  · intro hfree other hother name hname hclaimed
    obtain ⟨i, hi, rfl⟩ := List.getElem_of_mem hother
    have hfind := (h.owner_iff name i).2 ⟨_, List.getElem?_eq_getElem hi, hclaimed⟩
    exact hi.ne (hfree name hname i hfind)
  · intro hdisjoint name hname i hfind
    obtain ⟨other, hother, hclaimed⟩ := (h.owner_iff name i).1 hfind
    exact absurd hclaimed (hdisjoint other (List.mem_of_getElem? hother) hname)

/-- One more lifecycle takes the next position, and the others keep theirs. -/
theorem getElem?_append_singleton_iff {i : Nat} {other : Lifecycle} :
    (lifecycles ++ [l])[i]? = some other ↔
      lifecycles[i]? = some other ∨ i = lifecycles.length ∧ l = other := by
  rcases lt_trichotomy i lifecycles.length with hlt | rfl | hgt
  · simp [List.getElem?_append_left hlt, hlt.ne]
  · simp
  · have hnew : [l][i - lifecycles.length]? = none := List.getElem?_eq_none (by simp; omega)
    simp [List.getElem?_append_right hgt.le, hnew, List.getElem?_eq_none hgt.le, hgt.ne']

/-- Tables that hold some lifecycles hold one more after its names have been claimed for the next
position. -/
theorem Indexes.indexed (h : r.Indexes lifecycles)
    (hfree : ∀ name ∈ l.claimedNames, r.isFree lifecycles.length name = true) :
    (r.indexed lifecycles.length l).Indexes (lifecycles ++ [l]) where
  sorted := isSorted_claimed h.sorted _ _
  owner_iff name i := by
    show Keyed.find? name (claimed lifecycles.length l.claimedNames r.owners) = some i ↔ _
    simp only [find?_claimed, getElem?_append_singleton_iff]
    split
    next hname =>
      constructor
      · intro hi
        exact ⟨l, .inr ⟨(Option.some.inj hi).symm, rfl⟩, hname⟩
      · rintro ⟨other, hother | ⟨rfl, -⟩, hclaimed⟩
        · have hfind := (h.owner_iff name i).2 ⟨other, hother, hclaimed⟩
          exact congrArg some (LifecycleRegistry.isFree_iff.1 (hfree name hname) i hfind).symm
        · rfl
    next hname =>
      rw [h.owner_iff]
      refine exists_congr fun other => and_congr_left fun hclaimed => (or_iff_left ?_).symm
      rintro ⟨-, rfl⟩
      exact hname hclaimed
  alias_eq name := by
    show Keyed.find? name (taught l.aliases r.aliases) = _
    rw [find?_taught, h.alias_eq, List.flatMap_append, Alias.target?_append, List.flatMap_singleton]

/-- Lifecycles that claim no name twice can be indexed one after the other. -/
theorem Indexes.indexAll {done : List Lifecycle} (h : r.Indexes done)
    {lifecycles : List Lifecycle} (hapart : Apart (done ++ lifecycles)) :
    ∃ r', r.indexAll done.length lifecycles = (r', .ok ()) ∧ r'.Indexes (done ++ lifecycles) ∧
      r'.orders = r.orders := by
  induction lifecycles generalizing r done with
  | nil => exact ⟨r, rfl, by rwa [List.append_nil], rfl⟩
  | cons l rest ih =>
    have hdisjoint : ∀ other ∈ done, l.claimedNames.Disjoint other.claimedNames :=
      fun other hother =>
        List.disjoint_symm ((List.pairwise_append.1 hapart).2.2 other hother l List.mem_cons_self)
    have hfree := h.isFree_iff.2 hdisjoint
    rw [List.append_cons] at hapart
    obtain ⟨r', hr', hindexes, horders⟩ := ih (h.indexed hfree) hapart
    rcases r.index_cases done.length l with ⟨-, heq⟩ | ⟨htaken, -⟩
    · rw [List.append_cons]
      rw [List.length_append, List.length_singleton] at hr'
      exact ⟨r', by rw [LifecycleRegistry.indexAll, heq]; exact hr', hindexes, horders⟩
    · exact absurd hfree htaken

/-- Empty tables index no lifecycles. -/
theorem indexes_nil (orders : List (String × PhaseOrder)) :
    ({ orders := orders } : LifecycleRegistry).Indexes [] where
  sorted := .nil
  owner_iff name i := by simp [Keyed.find?]
  alias_eq name := rfl

/-! ### Soundness -/

/-- The lifecycles of a registry have ids of their own, and what they declare is in the tables. Only
the table of claims may hold more than that. -/
structure Sound (r : LifecycleRegistry) : Prop where
  nodup_ids : r.ids.Nodup
  sorted : Keyed.IsSorted r.owners
  claims : ∀ i l, r.lifecycles[i]? = some l → ∀ name ∈ l.claimedNames,
    Keyed.find? name r.owners = some i
  alias_eq : ∀ name, Keyed.find? name r.aliases =
    Alias.target? (r.lifecycles.flatMap (·.aliases)) name
  order_of_mem : ∀ l ∈ r.lifecycles, ∃ order, PhaseOrder.ofPhases l.phases = .ok order ∧
    Keyed.find? l.id r.orders = some order
  order_of_notMem : ∀ id, id ∉ r.ids → Keyed.find? id r.orders = none

/-- All tables of a registry hold what its lifecycles declare and nothing else. -/
structure Settled (r : LifecycleRegistry) : Prop where
  sound : r.Sound
  indexes : r.Indexes r.lifecycles

/-- An empty registry is settled. -/
theorem settled_empty : ({} : LifecycleRegistry).Settled where
  sound := {
    nodup_ids := .nil
    sorted := .nil
    claims := fun i l h => by simp at h
    alias_eq := fun name => rfl
    order_of_mem := fun l h => absurd h List.not_mem_nil
    order_of_notMem := fun id _ => rfl }
  indexes := indexes_nil []

/-- A name has one position only. -/
theorem Sound.apart (h : r.Sound) : Apart r.lifecycles := by
  refine List.pairwise_iff_getElem.2 fun i j hi hj hij name ha hb => ?_
  have hfirst := h.claims i _ (List.getElem?_eq_getElem hi) name ha
  rw [h.claims j _ (List.getElem?_eq_getElem hj) name hb] at hfirst
  exact hij.ne (Option.some.inj hfirst).symm

/-- A lifecycle is found for the ids of the registry only. -/
theorem get?_isSome_iff {id : String} : (r.get? id).isSome ↔ id ∈ r.ids := by
  simp [get?, ids]

/-- The lifecycle of a name is the one at the position that claims it. -/
theorem lifecycleOf_eq_ok_iff {name : String} : r.lifecycleOf name = .ok l ↔
    ∃ i, Keyed.find? name r.owners = some i ∧ r.lifecycles[i]? = some l := by
  rw [← Option.bind_eq_some_iff]
  unfold lifecycleOf
  cases (Keyed.find? name r.owners).bind (r.lifecycles[·]?) <;> simp

/-! ### The registry without a lifecycle -/

/-- Where no id comes twice, taking away the first lifecycle of an id takes away all of them. -/
theorem eraseP_eq_filter {id : String} (h : (lifecycles.map (·.id)).Nodup) :
    lifecycles.eraseP (·.id == id) = lifecycles.filter (·.id != id) := by
  induction lifecycles with
  | nil => rfl
  | cons l rest ih =>
    obtain ⟨hl, hrest⟩ := List.nodup_cons.1 h
    by_cases heq : l.id = id
    · subst heq
      have hothers : ∀ other ∈ rest, (other.id != l.id) = true := fun other hother => by
        simpa using fun he => hl (List.mem_map.2 ⟨other, hother, he⟩)
      simp [List.filter_eq_self.2 hothers]
    · simp [heq, ih hrest]

/-- A lifecycle can always be taken out, and then no claims are left behind. -/
theorem Sound.remove (h : r.Sound) (id : String) :
    ∃ r', r.remove id = (r', .ok ()) ∧ r'.Settled ∧
      r'.lifecycles = r.lifecycles.filter (·.id != id) := by
  let kept := r.lifecycles.filter (·.id != id)
  have hkept : r.lifecycles.eraseP (·.id == id) = kept := eraseP_eq_filter h.nodup_ids
  have hsub : kept.Sublist r.lifecycles := List.filter_sublist
  have hkeptApart : Apart ([] ++ kept) := h.apart.sublist hsub
  obtain ⟨r', hr', hindexes, horders⟩ := (indexes_nil (r.orders.filter fun entry =>
    kept.any (·.id == entry.1))).indexAll hkeptApart
  have hfind : ∀ id, Keyed.find? id r'.orders =
      if kept.any (·.id == id) then Keyed.find? id r.orders else none := fun id => by
    rw [horders]
    exact Keyed.find?_filter (fun id => kept.any (·.id == id)) id r.orders
  refine ⟨{ r' with lifecycles := kept }, ?_, ⟨?_, ?_⟩, rfl⟩
  · simp only [LifecycleRegistry.remove, hkept]
    rw [show indexAll _ 0 kept = (r', .ok ()) from hr']
  · exact {
      nodup_ids := (hsub.map _).nodup h.nodup_ids
      sorted := hindexes.sorted
      claims := fun i l hl name hname => (hindexes.owner_iff name i).2 ⟨l, hl, hname⟩
      alias_eq := hindexes.alias_eq
      order_of_mem := fun l hl => by
        obtain ⟨order, horder, hregistered⟩ := h.order_of_mem l (hsub.subset hl)
        refine ⟨order, horder, ?_⟩
        rw [← hregistered]
        exact (hfind l.id).trans (if_pos (List.any_eq_true.2 ⟨l, hl, beq_self_eq_true l.id⟩))
      order_of_notMem := fun id hid => by
        refine (hfind id).trans (if_neg fun hany => hid ?_)
        obtain ⟨l, hl, heq⟩ := List.any_eq_true.1 hany
        exact List.mem_map.2 ⟨l, hl, eq_of_beq heq⟩ }
  · exact ⟨hindexes.sorted, hindexes.owner_iff, hindexes.alias_eq⟩

/-- The registry without the lifecycle of an id, if it has one. -/
def without (r : LifecycleRegistry) (id : String) : LifecycleRegistry :=
  if (r.get? id).isSome then (r.remove id).1 else r

/-- Taking a lifecycle away leaves all others. -/
theorem Sound.lifecycles_without (h : r.Sound) (id : String) :
    (r.without id).lifecycles = r.lifecycles.filter (·.id != id) := by
  unfold without
  split
  next =>
    obtain ⟨r', heq, -, hlifecycles⟩ := h.remove id
    rw [heq]
    exact hlifecycles
  next hnone =>
    refine (List.filter_eq_self.2 fun l hl => ?_).symm
    simpa using fun heq => hnone (get?_isSome_iff.2 (List.mem_map.2 ⟨l, hl, heq⟩))

/-- A lifecycle that has been taken away is not there any more. -/
theorem Sound.notMem_ids_without (h : r.Sound) (id : String) : id ∉ (r.without id).ids := by
  simp [ids, h.lifecycles_without id]

/-- Taking a lifecycle away leaves a sound registry sound, as the tables are built anew. -/
theorem Sound.without (h : r.Sound) (id : String) : (r.without id).Sound := by
  unfold LifecycleRegistry.without
  split
  next =>
    obtain ⟨r', heq, hsettled, -⟩ := h.remove id
    rw [heq]
    exact hsettled.sound
  next => exact h

/-- Taking a lifecycle away leaves a settled registry settled. -/
theorem Settled.without (h : r.Settled) (id : String) : (r.without id).Settled := by
  unfold LifecycleRegistry.without
  split
  next =>
    obtain ⟨r', heq, hsettled, -⟩ := h.sound.remove id
    rw [heq]
    exact hsettled
  next => exact h

/-! ### Registrations -/

/-- A lifecycle that repeats no phase is added to the registry without the one of its id. -/
theorem Sound.register_eq (h : r.Sound) (hl : l.duplicatePhases = []) :
    r.register l = (r.without l.id).add l := by
  unfold register LifecycleRegistry.without
  rw [hl]
  simp only [List.head?_nil]
  split
  next =>
    obtain ⟨r', heq, -⟩ := h.remove l.id
    rw [heq]
  next => rfl

/-- A lifecycle that repeats a phase is refused, and nothing is changed. -/
theorem register_of_duplicatePhases (r : LifecycleRegistry) (hl : l.duplicatePhases ≠ []) :
    ∃ fault, r.register l = (r, .error fault) := by
  obtain ⟨phase, rest, hphases⟩ := List.exists_cons_of_ne_nil hl
  exact ⟨.duplicatePhase phase l.id, by simp [register, hphases]⟩

/-- The registry to which a lifecycle has been added at its end. -/
def extended (r : LifecycleRegistry) (l : Lifecycle) (order : PhaseOrder) : LifecycleRegistry :=
  { r.indexed r.lifecycles.length l with
    lifecycles := r.lifecycles ++ [l]
    orders := Keyed.insert l.id order r.orders }

/-- A lifecycle is refused because it has no order, or because one of its names is taken, when the
names before that one have been claimed; otherwise it is added. -/
theorem add_cases (r : LifecycleRegistry) (l : Lifecycle) :
    ((¬ ∃ order, PhaseOrder.ofPhases l.phases = .ok order) ∧
      ∃ fault, r.add l = (r, .error fault)) ∨
    ∃ order, PhaseOrder.ofPhases l.phases = .ok order ∧
      ((¬ ∀ name ∈ l.claimedNames, r.isFree r.lifecycles.length name = true) ∧
          (∃ fault, r.add l = (r.withClaims r.lifecycles.length
            (l.claimedNames.takeWhile (r.isFree r.lifecycles.length)), .error fault)) ∨
        (∀ name ∈ l.claimedNames, r.isFree r.lifecycles.length name = true) ∧
          r.add l = (r.extended l order, .ok ())) := by
  unfold add
  cases horder : PhaseOrder.ofPhases l.phases with
  | error fault => exact .inl ⟨by simp, _, rfl⟩
  | ok order =>
    refine .inr ⟨order, rfl, ?_⟩
    rcases r.index_cases r.lifecycles.length l with ⟨hfree, heq⟩ | ⟨htaken, fault, heq⟩
    · exact .inr ⟨hfree, by rw [heq]; rfl⟩
    · exact .inl ⟨htaken, fault, by rw [heq]⟩

/-- Names that are free for the next position belong to no lifecycle. -/
theorem Sound.notMem_of_isFree (h : r.Sound)
    (hfree : ∀ name ∈ names, r.isFree r.lifecycles.length name = true) {i : Nat}
    (hi : r.lifecycles[i]? = some l) {name : String} (hname : name ∈ l.claimedNames) :
    name ∉ names := fun hmem => (List.getElem?_eq_some_iff.1 hi).1.ne
  (isFree_iff.1 (hfree name hmem) i (h.claims i l hi name hname))

/-- Claims for the next position leave those of all lifecycles alone. -/
theorem Sound.withClaims (h : r.Sound)
    (hfree : ∀ name ∈ names, r.isFree r.lifecycles.length name = true) :
    (r.withClaims r.lifecycles.length names).Sound :=
  { h with
    sorted := isSorted_claimed h.sorted _ _
    claims := fun i l hi name hname => by
      refine (find?_claimed _ _ _ _).trans ?_
      rw [if_neg (h.notMem_of_isFree hfree hi hname)]
      exact h.claims i l hi name hname }

/-- A lifecycle that can be ordered and whose names are free may be added to a sound registry. -/
theorem Sound.extended (h : r.Sound) (hid : l.id ∉ r.ids) {order : PhaseOrder}
    (horder : PhaseOrder.ofPhases l.phases = .ok order)
    (hfree : ∀ name ∈ l.claimedNames, r.isFree r.lifecycles.length name = true) :
    (r.extended l order).Sound where
  nodup_ids := by
    show ((r.lifecycles ++ [l]).map (·.id)).Nodup
    rw [List.map_append]
    exact List.nodup_append'.2 ⟨h.nodup_ids, List.nodup_singleton _,
      List.disjoint_singleton.2 hid⟩
  sorted := isSorted_claimed h.sorted _ _
  claims i other hi name hname := by
    refine (find?_claimed _ _ _ _).trans ?_
    rcases getElem?_append_singleton_iff.1 hi with hi | ⟨rfl, rfl⟩
    · rw [if_neg (h.notMem_of_isFree hfree hi hname)]
      exact h.claims i other hi name hname
    · exact if_pos hname
  alias_eq name := by
    show Keyed.find? name (taught l.aliases r.aliases) =
      Alias.target? ((r.lifecycles ++ [l]).flatMap (·.aliases)) name
    rw [find?_taught, h.alias_eq, List.flatMap_append, Alias.target?_append, List.flatMap_singleton]
  order_of_mem other hother := by
    rcases List.mem_append.1 hother with hother | hother
    · obtain ⟨order', horder', hfind⟩ := h.order_of_mem other hother
      have hne : other.id ≠ l.id := fun heq => hid (heq ▸ List.mem_map_of_mem hother)
      exact ⟨order', horder', (Keyed.find?_insert_of_ne hne _ _).trans hfind⟩
    · obtain rfl := List.mem_singleton.1 hother
      exact ⟨order, horder, Keyed.find?_insert_self _ _ _⟩
  order_of_notMem id hnot := by
    have hmem : id ∉ r.ids ++ [l.id] := by simpa [LifecycleRegistry.extended, ids] using hnot
    have hne : id ≠ l.id := fun heq => hmem (by simp [heq])
    exact (Keyed.find?_insert_of_ne hne _ _).trans
      (h.order_of_notMem id fun h => hmem (List.mem_append_left _ h))

/-- A registration keeps a registry sound, whether the lifecycle is refused or not. -/
theorem Sound.register (h : r.Sound) (l : Lifecycle) : (r.register l).1.Sound := by
  by_cases hl : l.duplicatePhases = []
  · have hbase := h.without l.id
    rw [h.register_eq hl]
    rcases (r.without l.id).add_cases l with
      ⟨-, fault, heq⟩ | ⟨order, horder, ⟨htaken, fault, heq⟩ | ⟨hfree, heq⟩⟩
    · rw [heq]
      exact hbase
    · rw [heq]
      exact hbase.withClaims fun name hname => List.mem_takeWhile_imp hname
    · rw [heq]
      exact hbase.extended (h.notMem_ids_without l.id) horder hfree
  · obtain ⟨fault, heq⟩ := r.register_of_duplicatePhases hl
    rw [heq]
    exact h

/-- The registry after some registrations, refused ones included. -/
def after (r : LifecycleRegistry) (attempts : List Lifecycle) : LifecycleRegistry :=
  attempts.foldl (fun r l => (r.register l).1) r

/-- Registrations leave a registry sound, also those that are refused. -/
theorem Sound.after (h : r.Sound) (attempts : List Lifecycle) : (r.after attempts).Sound := by
  induction attempts generalizing r with
  | nil => exact h
  | cons l rest ih => exact ih (h.register l)

/-- Whatever has been registered, the registry is sound. -/
theorem sound_after (attempts : List Lifecycle) :
    (after {} attempts).Sound :=
  settled_empty.sound.after attempts

/-- In a settled registry a lifecycle without repeated phases is added exactly when it has an order
and no lifecycle of another id claims one of its names. -/
theorem Settled.register_cases (h : r.Settled) (hl : l.duplicatePhases = []) :
    (∃ order, PhaseOrder.ofPhases l.phases = .ok order ∧
      (∀ other ∈ r.lifecycles, other.id ≠ l.id → l.claimedNames.Disjoint other.claimedNames) ∧
      r.register l = ((r.without l.id).extended l order, .ok ()) ∧
      ((r.without l.id).extended l order).Settled) ∨
    (¬ ((∃ order, PhaseOrder.ofPhases l.phases = .ok order) ∧
      ∀ other ∈ r.lifecycles, other.id ≠ l.id → l.claimedNames.Disjoint other.claimedNames)) ∧
      ∃ r' fault, r.register l = (r', .error fault) := by
  have hbase := h.without l.id
  have hfree_iff : (∀ name ∈ l.claimedNames,
        (r.without l.id).isFree (r.without l.id).lifecycles.length name = true) ↔
      ∀ other ∈ r.lifecycles, other.id ≠ l.id →
        l.claimedNames.Disjoint other.claimedNames := by
    rw [hbase.indexes.isFree_iff, h.sound.lifecycles_without]
    simp
  rw [h.sound.register_eq hl]
  rcases (r.without l.id).add_cases l with
    ⟨hnone, fault, heq⟩ | ⟨order, horder, ⟨htaken, fault, heq⟩ | ⟨hfree, heq⟩⟩
  · exact .inr ⟨fun h => hnone h.1, _, fault, heq⟩
  · exact .inr ⟨fun h => htaken (hfree_iff.2 h.2), _, fault, heq⟩
  · refine .inl ⟨order, horder, hfree_iff.1 hfree, heq, ?_, ?_⟩
    · exact hbase.sound.extended (h.sound.notMem_ids_without l.id) horder hfree
    · have hindexes := hbase.indexes.indexed hfree
      exact ⟨hindexes.sorted, hindexes.owner_iff, hindexes.alias_eq⟩

end LifecycleRegistry

end PhasedBuild
