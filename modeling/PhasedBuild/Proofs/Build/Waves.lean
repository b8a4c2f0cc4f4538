import PhasedBuild.Proofs.Build.Schedule
import PhasedBuild.Proofs.Units.BuildOrder

/-!
# Units side by side

The waves of a schedule are found in rounds. Each round takes all units that are not done yet and
wait for none but those that are, until a round finds no unit.

* `Schedule.round`: what each round takes; `Schedule.exists_waves_eq`: the waves are the rounds up
  to the first one that finds no unit.
* `UnitGraph.LongestChain`: how many direct dependencies follow each other from a member down.
* `Schedule.mem_doneAfter_iff`: after some rounds the members are done from which only shorter
  chains lead down. Chains do not pass a unit twice, so all members are done in the end.
* `Schedule.waves_go_by_longest_chains`: each wave holds the members with chains of one length.
-/

namespace PhasedBuild

/-! ### Rounds -/

namespace Schedule

/-- The units of the next wave when some are done: those that are not done themselves and wait for
none that is not. -/
def wave (s : Schedule) (done : List String) : List String :=
  ((without done s.units).filter (isUnblocked done)).map (·.id)

/-- The units that are done after some rounds. -/
def doneAfter (s : Schedule) : Nat → List String
  | 0 => []
  | k + 1 => s.doneAfter k ++ s.wave (s.doneAfter k)

/-- What a round takes. -/
def round (s : Schedule) (k : Nat) : List String :=
  s.wave (s.doneAfter k)

variable {s : Schedule} {id : String} {done : List String} {k n : Nat}

/-- One more round adds what it takes. -/
theorem doneAfter_succ : s.doneAfter (k + 1) = s.doneAfter k ++ s.round k := rfl

/-- A unit is done after some rounds if one of them takes it. -/
theorem mem_doneAfter_iff_exists_round : id ∈ s.doneAfter k ↔ ∃ j < k, id ∈ s.round j := by
  induction k with
  | zero => simp [doneAfter]
  | succ k ih => simp only [doneAfter_succ, List.mem_append, ih, Nat.exists_lt_succ_right]

/-- A wave keeps the order of the units. -/
theorem wave_sublist : (s.wave done).Sublist s.ids :=
  (List.filter_sublist.trans List.filter_sublist).map _

/-- A wave takes no unit that is done. -/
theorem notMem_of_mem_wave (h : id ∈ s.wave done) : id ∉ done := by
  obtain ⟨unit, hunit, rfl⟩ := List.mem_map.1 h
  simpa [without] using (List.mem_filter.1 (List.mem_of_mem_filter hunit)).2

/-- No unit is done twice. -/
theorem nodup_doneAfter (hnodup : s.ids.Nodup) : (s.doneAfter k).Nodup := by
  induction k with
  | zero => exact .nil
  | succ k ih =>
    refine List.nodup_append.2 ⟨ih, hnodup.sublist wave_sublist, fun id hid other hother heq => ?_⟩
    exact notMem_of_mem_wave hother (heq ▸ hid)

/-- Once a round has found no unit, none does. -/
theorem doneAfter_add (h : s.round n = []) (more : Nat) :
    s.doneAfter (n + more) = s.doneAfter n := by
  induction more with
  | zero => rfl
  | succ more ih => rw [← Nat.add_assoc, doneAfter_succ, round, ih, ← round, h, List.append_nil]

/-- After a round that takes nothing no round takes anything. -/
theorem round_add (h : s.round n = []) (more : Nat) : s.round (n + more) = [] := by
  rw [round, doneAfter_add h, ← round, h]

/-- Units may be left out in two parts. -/
theorem without_without (wave : List String) (units : List ScheduledUnit) :
    without wave (without done units) = without (done ++ wave) units := by
  simp only [without, List.filter_filter]
  refine List.filter_congr fun unit _ => ?_
  simp [Bool.and_comm]

/-- Taking waves from the units that are not done goes on with the next round. -/
theorem peel_eq : peel done (without done s.units) =
    if s.wave done = [] then []
    else s.wave done :: peel (done ++ s.wave done) (without (done ++ s.wave done) s.units) := by
  rw [peel]
  split
  next hnone =>
    have hwave : s.wave done = [] := by rw [wave, hnone, List.map_nil]
    rw [if_pos hwave]
  next unit others hsome =>
    have hwave : s.wave done = unit.id :: others.map (·.id) := by rw [wave, hsome, List.map_cons]
    rw [if_neg (by simp [hwave]), hwave, ← without_without]

/-- From any round on, the waves are the rounds up to the first one that finds no unit. -/
theorem peel_doneAfter (hlast : s.round n = []) (hfilled : ∀ k < n, s.round k ≠ []) {left : Nat}
    (hleft : k + left = n) :
    peel (s.doneAfter k) (without (s.doneAfter k) s.units) =
      (List.range' k left).map s.round := by
  induction left generalizing k with
  | zero =>
    obtain rfl : k = n := hleft
    have hwave : s.wave (s.doneAfter k) = [] := hlast
    rw [peel_eq, if_pos hwave, List.range'_zero, List.map_nil]
  | succ left ih =>
    have hwave : s.wave (s.doneAfter k) ≠ [] := hfilled k (by omega)
    rw [peel_eq, if_neg hwave, List.range'_succ, List.map_cons]
    exact congrArg _ (ih (k := k + 1) (by omega))

/-- The waves are the rounds up to the first that takes nothing. -/
theorem waves_eq (hlast : s.round n = []) (hfilled : ∀ k < n, s.round k ≠ []) :
    s.waves = (List.range n).map s.round := by
  have hpeel := peel_doneAfter hlast hfilled (Nat.zero_add n)
  have hall : without (s.doneAfter 0) s.units = s.units :=
    List.filter_eq_self.2 fun _ _ => rfl
  rw [hall] at hpeel
  rw [waves, List.range_eq_range']
  exact hpeel

/-- If some round finds no unit, the waves are the rounds before the first such one. -/
theorem exists_waves_eq {bound : Nat} (h : s.round bound = []) :
    ∃ n ≤ bound, s.round n = [] ∧ (∀ k < n, s.round k ≠ []) ∧
      s.waves = (List.range n).map s.round := by
  have hsome : ∃ n, s.round n = [] := ⟨bound, h⟩
  have hfilled : ∀ k < Nat.find hsome, s.round k ≠ [] := fun k hk => Nat.find_min hsome hk
  exact ⟨Nat.find hsome, Nat.find_min' hsome h, Nat.find_spec hsome, hfilled,
    waves_eq (Nat.find_spec hsome) hfilled⟩

/-- A wave is what the round of its number takes, and those after the last one take nothing. -/
theorem getD_waves (hlast : s.round n = []) (hwaves : s.waves = (List.range n).map s.round)
    (k : Nat) : s.waves.getD k [] = s.round k := by
  by_cases hk : k < n
  · simp [hwaves, hk]
  · obtain ⟨more, rfl⟩ := Nat.exists_eq_add_of_le (Nat.not_lt.1 hk)
    simp [hwaves, round_add hlast]

/-- The rounds together take what is done after them. -/
theorem flatten_rounds (n : Nat) : ((List.range n).map s.round).flatten = s.doneAfter n := by
  induction n with
  | zero => rfl
  | succ n ih => simp [List.range_succ, ih, doneAfter_succ]

end Schedule

/-! ### Chains of dependencies -/

namespace UnitGraph

variable (g : UnitGraph) (members : List String)

/-- Dependencies lead from a unit to the first of a list, and on from each of them to the next. All
of them are members. -/
def ChainWithin (id : String) (chain : List String) : Prop :=
  (id :: chain).IsChain (Names g.units) ∧ id :: chain ⊆ members

/-- All chains from a unit are shorter than a number. -/
def ChainsBelow (k : Nat) (id : String) : Prop :=
  ∀ chain, g.ChainWithin members id chain → chain.length < k

/-- The longest chain from a unit has a length. -/
def LongestChain (id : String) (length : Nat) : Prop :=
  (∃ chain, g.ChainWithin members id chain ∧ chain.length = length) ∧
    ∀ chain, g.ChainWithin members id chain → chain.length ≤ length

variable {g members} {id other : String} {k : Nat}

/-- A chain of one unit only needs the unit to be a member. -/
theorem chainWithin_nil_iff : g.ChainWithin members id [] ↔ id ∈ members := by
  simp [ChainWithin]

/-- A chain goes on from a unit to one that it names, and from there. -/
theorem chainWithin_cons_iff {chain : List String} :
    g.ChainWithin members id (other :: chain) ↔
      id ∈ members ∧ Names g.units id other ∧ g.ChainWithin members other chain := by
  simp only [ChainWithin, List.isChain_cons_cons, List.cons_subset]
  constructor
  · rintro ⟨⟨hnames, hchain⟩, hid, hsub⟩
    exact ⟨hid, hnames, hchain, hsub⟩
  · rintro ⟨hid, hnames, hchain, hsub⟩
    exact ⟨⟨hnames, hchain⟩, hid, hsub⟩

/-- No member has chains that are shorter than nothing. -/
theorem not_chainsBelow_zero (hid : id ∈ members) : ¬ g.ChainsBelow members 0 id := fun h =>
  Nat.not_lt_zero _ (h [] (chainWithin_nil_iff.2 hid))

/-- Chains that are shorter than a number are shorter than any greater one. -/
theorem ChainsBelow.mono {l : Nat} (h : g.ChainsBelow members k id) (hle : k ≤ l) :
    g.ChainsBelow members l id := fun chain hchain =>
  Nat.lt_of_lt_of_le (h chain hchain) hle

/-- The chains from a unit go through one of its dependencies. -/
theorem chainsBelow_succ_iff (hid : id ∈ members) : g.ChainsBelow members (k + 1) id ↔
    ∀ other ∈ members, Names g.units id other → g.ChainsBelow members k other := by
  constructor
  · intro h other hother hnames chain hchain
    exact Nat.lt_of_succ_lt_succ (h (other :: chain) (chainWithin_cons_iff.2 ⟨hid, hnames, hchain⟩))
  · intro h chain hchain
    cases chain with
    | nil => exact Nat.succ_pos k
    | cons other rest =>
      obtain ⟨-, hnames, hrest⟩ := chainWithin_cons_iff.1 hchain
      have hother : other ∈ members := hrest.2 List.mem_cons_self
      exact Nat.succ_lt_succ (h other hother hnames rest hrest)

/-- The longest chain from a unit has a length exactly if no chain is longer and not all are
shorter. -/
theorem longestChain_iff : g.LongestChain members id k ↔
    g.ChainsBelow members (k + 1) id ∧ ¬ g.ChainsBelow members k id := by
  constructor
  · rintro ⟨⟨chain, hchain, hlength⟩, hle⟩
    refine ⟨fun chain hchain => Nat.lt_succ_of_le (hle chain hchain), fun hbelow => ?_⟩
    exact Nat.ne_of_lt (hbelow chain hchain) hlength
  · rintro ⟨hbelow, hnot⟩
    have hle : ∀ chain, g.ChainWithin members id chain → chain.length ≤ k := fun chain hchain =>
      Nat.le_of_lt_succ (hbelow chain hchain)
    obtain ⟨chain, hchain, hlength⟩ : ∃ chain, g.ChainWithin members id chain ∧
        ¬ chain.length < k := by
      simpa [ChainsBelow] using hnot
    exact ⟨⟨chain, hchain, Nat.le_antisymm (hle chain hchain) (Nat.not_lt.1 hlength)⟩, hle⟩

/-- A chain goes down in build order, so it passes no unit twice. -/
theorem ChainWithin.nodup {chain : List String} (h : g.ChainWithin members id chain) :
    (id :: chain).Nodup := by
  have hdown : (id :: chain).IsChain fun a b => g.rank b < g.rank a :=
    h.1.imp fun _ _ hnames => rank_lt_of_mem_prerequisites (mem_prerequisites_iff.2 hnames)
  have : IsTrans String fun a b => g.rank b < g.rank a := ⟨fun _ _ _ hab hbc => hbc.trans hab⟩
  refine (List.isChain_iff_pairwise.1 hdown).imp fun {a b} hlt heq => ?_
  rw [heq] at hlt
  exact Nat.lt_irrefl _ hlt

/-- There are no longer chains than there are members. -/
theorem chainsBelow_length : g.ChainsBelow members members.length id := by
  intro chain hchain
  exact (List.subperm_of_subset hchain.nodup hchain.2).length_le

end UnitGraph

/-! ### Waves of members -/

namespace Schedule

open UnitGraph

variable {g : UnitGraph} {members : List BuildUnit} {id : String} {k : Nat}

/-- A member is in the next wave exactly if it is not done and all members that it names are. -/
theorem mem_wave_ofMembers_iff {done : List String} : id ∈ (ofMembers g members).wave done ↔
    id ∈ members.map (·.id) ∧ id ∉ done ∧
      ∀ other ∈ members.map (·.id), Names g.units id other → other ∈ done := by
  have hunblocked : ∀ id, (((g.prerequisites id).filter (members.map (·.id)).contains).all
      done.contains = true) ↔
      ∀ other ∈ members.map (·.id), Names g.units id other → other ∈ done := by
    intro id
    simp only [List.all_eq_true, List.mem_filter, List.contains_iff_mem, mem_prerequisites_iff,
      Names, and_imp]
    exact forall_congr' fun other => forall_comm
  simp only [wave, without, ofMembers, List.filter_map, List.filter_filter, List.map_map,
    List.mem_map, List.mem_filter, Function.comp_def, Bool.and_eq_true, isUnblocked, hunblocked]
  constructor
  · rintro ⟨unit, ⟨hunit, hready, hnot⟩, rfl⟩
    exact ⟨⟨unit, hunit, rfl⟩, by simpa using hnot, hready⟩
  · rintro ⟨⟨unit, hunit, rfl⟩, hnot, hready⟩
    exact ⟨unit, ⟨hunit, hready, by simpa using hnot⟩, rfl⟩

/-- After some rounds those members are done from which only shorter chains lead down. -/
theorem mem_doneAfter_iff : id ∈ (ofMembers g members).doneAfter k ↔
    id ∈ members.map (·.id) ∧ g.ChainsBelow (members.map (·.id)) k id := by
  induction k generalizing id with
  | zero =>
    refine iff_of_false List.not_mem_nil ?_
    rintro ⟨hid, hbelow⟩
    exact not_chainsBelow_zero hid hbelow
  | succ k ih =>
    have hdone : ∀ {other}, other ∈ members.map (·.id) →
        (other ∈ (ofMembers g members).doneAfter k ↔
          g.ChainsBelow (members.map (·.id)) k other) := fun hother =>
      ih.trans (and_iff_right hother)
    rw [doneAfter_succ, List.mem_append, round, mem_wave_ofMembers_iff]
    constructor
    · rintro (hold | ⟨hid, -, hready⟩)
      · obtain ⟨hid, hbelow⟩ := ih.1 hold
        exact ⟨hid, hbelow.mono (Nat.le_succ k)⟩
      · exact ⟨hid, (chainsBelow_succ_iff hid).2 fun other hother hnames =>
          (hdone hother).1 (hready other hother hnames)⟩
    · rintro ⟨hid, hbelow⟩
      by_cases hold : id ∈ (ofMembers g members).doneAfter k
      · exact .inl hold
      · exact .inr ⟨hid, hold, fun other hother hnames =>
          (hdone hother).2 ((chainsBelow_succ_iff hid).1 hbelow other hother hnames)⟩

/-- A round takes the members whose longest chains are as long as there were rounds before. -/
theorem mem_round_iff :
    id ∈ (ofMembers g members).round k ↔ g.LongestChain (members.map (·.id)) id k := by
  rw [round, mem_wave_ofMembers_iff, longestChain_iff, mem_doneAfter_iff]
  have hready (hid : id ∈ members.map (·.id)) : (∀ other ∈ members.map (·.id),
      Names g.units id other → other ∈ (ofMembers g members).doneAfter k) ↔
        g.ChainsBelow (members.map (·.id)) (k + 1) id := by
    rw [chainsBelow_succ_iff hid]
    exact forall₂_congr fun other hother => imp_congr_right fun _ =>
      mem_doneAfter_iff.trans (and_iff_right hother)
  constructor
  · rintro ⟨hid, hnot, hall⟩
    exact ⟨(hready hid).1 hall, fun hbelow => hnot ⟨hid, hbelow⟩⟩
  · rintro ⟨hbelow, hnot⟩
    -- of what is no member there are no chains at all
    have hid : id ∈ members.map (·.id) := by
      by_contra hid
      exact hnot fun chain hchain => absurd (hchain.2 List.mem_cons_self) hid
    exact ⟨hid, fun hdone => hnot hdone.2, (hready hid).2 hbelow⟩

/-- No chain is longer than there are members, for it passes no unit twice. -/
theorem chainsBelow_length_members : g.ChainsBelow (members.map (·.id)) members.length id := by
  have hbelow : g.ChainsBelow (members.map (·.id)) (members.map (·.id)).length id :=
    chainsBelow_length
  rwa [List.length_map] at hbelow

/-- After as many rounds as there are members, no unit is left. -/
theorem round_length_eq_nil : (ofMembers g members).round members.length = [] := by
  refine List.eq_nil_iff_forall_not_mem.2 fun id hid => ?_
  exact (longestChain_iff.1 (mem_round_iff.1 hid)).2 chainsBelow_length_members

/-- After so many rounds as there are members all of them are done. -/
theorem mem_doneAfter_length_iff :
    id ∈ (ofMembers g members).doneAfter members.length ↔ id ∈ members.map (·.id) :=
  mem_doneAfter_iff.trans (and_iff_left chainsBelow_length_members)

/-- The rounds end, after at most as many as there are members. The waves hold each member once.
Wave `k` has the members whose longest chains of direct dependencies among the members have length
`k`, in build order, and what a member depends on directly is in an earlier wave. -/
theorem waves_go_by_longest_chains (g : UnitGraph) (members : List BuildUnit)
    (hmembers : members.Sublist g.sorted) :
    let s := ofMembers g members
    let ids := members.map (·.id)
    (∃ n ≤ members.length, s.round n = [] ∧ (∀ k < n, s.round k ≠ []) ∧
      s.waves = (List.range n).map s.round) ∧
    s.waves.flatten.Perm ids ∧ ids.Nodup ∧
    ∀ k, (s.waves.getD k []).Sublist ids ∧
      (∀ id, id ∈ s.waves.getD k [] ↔ g.LongestChain ids id k) ∧
      ∀ id ∈ s.waves.getD k [], ∀ other ∈ ids, Names g.units id other →
        ∃ j < k, other ∈ s.waves.getD j [] := by
  intro s ids
  have hids : s.ids = ids := ids_ofMembers g members
  have hnodup : ids.Nodup := g.nodup_sorted_ids.sublist (hmembers.map _)
  obtain ⟨n, hle, hlast, hfilled, hwaves⟩ := exists_waves_eq (s := s) round_length_eq_nil
  have hgetD : ∀ k, s.waves.getD k [] = s.round k := getD_waves hlast hwaves
  refine ⟨⟨n, hle, hlast, hfilled, hwaves⟩, ?_, hnodup, fun k => ?_⟩
  · have hflatten : s.waves.flatten = s.doneAfter n := by rw [hwaves, flatten_rounds]
    rw [hflatten]
    refine (List.perm_ext_iff_of_nodup (nodup_doneAfter (hids ▸ hnodup)) hnodup).2 fun id => ?_
    obtain ⟨more, hmore⟩ := Nat.exists_eq_add_of_le hle
    have hall : s.doneAfter n = s.doneAfter members.length := by rw [hmore, doneAfter_add hlast]
    rw [hall]
    exact mem_doneAfter_length_iff
  · simp only [hgetD]
    refine ⟨hids ▸ wave_sublist, fun _ => mem_round_iff, fun id hid other hother hnames => ?_⟩
    obtain ⟨-, -, hready⟩ := mem_wave_ofMembers_iff.1 hid
    exact mem_doneAfter_iff_exists_round.1 (hready other hother hnames)

end Schedule

/-- Four units, of which `web` depends on `core` directly and through `api`. -/
def UnitGraph.tower : UnitGraph where
  units := [{ id := "core" }, { id := "api", dependencies := [{ unit := "core" }] },
    { id := "web", dependencies := [{ unit := "core" }, { unit := "api" }] }, { id := "docs" }]
  sorted := [{ id := "core" }, { id := "api", dependencies := [{ unit := "core" }] },
    { id := "web", dependencies := [{ unit := "core" }, { unit := "api" }] }, { id := "docs" }]
  nodup_ids := by decide
  sorted_perm := .refl _
  arranged := ⟨rfl, rfl, rfl, rfl, trivial⟩

/-- It is the longer way that counts for `web`. -/
theorem Schedule.waves_of_tower : UnitGraph.tower.sorted.Sublist UnitGraph.tower.sorted ∧
    (ofMembers UnitGraph.tower UnitGraph.tower.sorted).waves =
      [["core", "docs"], ["api"], ["web"]] ∧
    UnitGraph.tower.LongestChain ["core", "api", "web", "docs"] "web" 2 := by
  have hwaves : (ofMembers UnitGraph.tower UnitGraph.tower.sorted).waves =
      [["core", "docs"], ["api"], ["web"]] := by cbv
  obtain ⟨-, -, -, hchains⟩ :=
    waves_go_by_longest_chains UnitGraph.tower UnitGraph.tower.sorted (.refl _)
  refine ⟨.refl _, hwaves, ((hchains 2).2.1 "web").1 ?_⟩
  rw [hwaves]
  exact List.mem_singleton_self _

end PhasedBuild
