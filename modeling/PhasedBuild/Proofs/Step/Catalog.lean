import PhasedBuild.Proofs.Keyed
import PhasedBuild.Step.Catalog

/-!
# Plugins and their short names

A plugin that is registered takes the place of the one of its key. The table of short names knows
nothing of that: an entry of it is replaced by another registration with the short name only, of
whatever plugin, and outlives the registration that it was made for.

* `Catalog.registered`: the registrations that have not been replaced; `Catalog.plugin_eq_ok_iff`:
  these are the plugins of the catalog.
* `Catalog.resolveShorthand_eq_ok_iff`: a short name stands for the last registration with it,
  whether it has been replaced or not.
* `Catalog.answersCurrently_iff`: that is the last one of those that have not been replaced exactly
  if it has not been replaced itself.
* `Catalog.short_names_go_by_last_registration` puts this together.
* `Catalog.short_name_outlives_registration`: a plugin is registered anew without its short name.
-/

namespace PhasedBuild

/-- A plugin as the catalog keeps it: its goals take its coordinate. -/
def PluginDescriptor.owned (plugin : PluginDescriptor) : PluginDescriptor :=
  { plugin with goals := plugin.goals.map fun goal => { goal with plugin := plugin.coordinate } }

namespace Catalog

/-! ### Registrations -/

/-- The registrations that have not been replaced, in their order. -/
def registered (registrations : List PluginDescriptor) : List PluginDescriptor :=
  registrations.foldl
    (fun kept plugin => kept.filter (·.coordinate.key ≠ plugin.coordinate.key) ++ [plugin]) []

/-- The last plugin of a list that declares a short name. -/
def lastNamed (shorthand : String) (plugins : List PluginDescriptor) : Option PluginDescriptor :=
  (plugins.filter (·.shorthand = some shorthand)).getLast?

variable {registrations : List PluginDescriptor} {last plugin other : PluginDescriptor}
  {shorthand : String} {coordinate : Coordinate}

/-- A registration replaces those of its key and comes last. -/
theorem registered_concat : registered (registrations ++ [last]) =
    (registered registrations).filter (·.coordinate.key ≠ last.coordinate.key) ++ [last] :=
  List.foldl_append

/-- After one more registration the registered plugins are that one and those of other keys. -/
theorem mem_registered_concat_iff : plugin ∈ registered (registrations ++ [last]) ↔
    plugin ∈ registered registrations ∧ plugin.coordinate.key ≠ last.coordinate.key ∨
      plugin = last := by
  simp [registered_concat]

/-- The last plugin of a list is registered last. -/
theorem registerAll_concat (c : Catalog) :
    c.registerAll (registrations ++ [last]) = (c.registerAll registrations).register last :=
  List.foldl_append

/-- A last plugin with a short name is the last with that name. -/
theorem lastNamed_concat_of_named (h : last.shorthand = some shorthand) :
    lastNamed shorthand (registrations ++ [last]) = some last := by
  simp [lastNamed, List.filter_append, h]

/-- A last plugin without a short name leaves the last one that has it. -/
theorem lastNamed_concat_of_ne (h : last.shorthand ≠ some shorthand) :
    lastNamed shorthand (registrations ++ [last]) = lastNamed shorthand registrations := by
  simp [lastNamed, List.filter_append, h]

/-- The last plugin with a short name declares it. -/
theorem shorthand_of_lastNamed (h : lastNamed shorthand registrations = some plugin) :
    plugin.shorthand = some shorthand := by
  simpa using (List.mem_filter.1 (List.mem_of_getLast? h)).2

/-- There is no last plugin with a short name exactly if none declares it. -/
theorem lastNamed_eq_none_iff :
    lastNamed shorthand registrations = none ↔
      ∀ plugin ∈ registrations, plugin.shorthand ≠ some shorthand := by
  simp [lastNamed]

/-- The last plugin with a short name stays the last one in a part of the list that has it. -/
theorem lastNamed_filter {keep : PluginDescriptor → Bool}
    (h : lastNamed shorthand registrations = some plugin) (hkeep : keep plugin = true) :
    lastNamed shorthand (registrations.filter keep) = some plugin := by
  obtain ⟨init, hinit⟩ := List.getLast?_eq_some_iff.1 h
  rw [lastNamed, List.filter_comm, hinit, List.filter_append]
  simp [hkeep]

/-! ### The two tables -/

/-- Under each key stands the registration of the key that has not been replaced. -/
theorem find?_plugins_eq_some_iff {key : String} :
    Keyed.find? key (({} : Catalog).registerAll registrations).plugins = some plugin ↔
      ∃ r ∈ registered registrations, r.coordinate.key = key ∧ r.owned = plugin := by
  induction registrations using List.reverseRecOn with
  | nil => simp [registerAll, registered, Keyed.find?]
  | append_singleton registrations last ih =>
    rw [registerAll_concat, register]
    simp only [mem_registered_concat_iff]
    by_cases hkey : key = last.coordinate.key
    · subst hkey
      rw [Keyed.find?_insert_self]
      constructor
      · intro h
        exact ⟨last, .inr rfl, rfl, Option.some.inj h⟩
      · rintro ⟨r, ⟨-, hne⟩ | rfl, hr, rfl⟩
        · exact absurd hr hne
        · rfl
    · rw [Keyed.find?_insert_of_ne hkey, ih]
      constructor
      · rintro ⟨r, hmem, rfl, howned⟩
        exact ⟨r, .inl ⟨hmem, hkey⟩, rfl, howned⟩
      · rintro ⟨r, ⟨hmem, -⟩ | rfl, hr, howned⟩
        · exact ⟨r, hmem, hr, howned⟩
        · exact absurd hr.symm hkey

/-- Under each short name stands the coordinate of the last registration with it. -/
theorem find?_shorthands (registrations : List PluginDescriptor) (shorthand : String) :
    Keyed.find? shorthand (({} : Catalog).registerAll registrations).shorthands =
      (lastNamed shorthand registrations).map (·.coordinate) := by
  induction registrations using List.reverseRecOn with
  | nil => rfl
  | append_singleton registrations last ih =>
    rw [registerAll_concat, register]
    by_cases hname : last.shorthand = some shorthand
    · rw [lastNamed_concat_of_named hname, hname]
      exact Keyed.find?_insert_self _ _ _
    · rw [lastNamed_concat_of_ne hname, ← ih]
      cases hother : last.shorthand with
      | none => rfl
      | some other =>
        have hne : shorthand ≠ other := fun heq => hname (heq ▸ hother)
        exact Keyed.find?_insert_of_ne hne _ _

/-- A coordinate is resolved to the registered plugin of its key. -/
theorem plugin_eq_ok_iff :
    (({} : Catalog).registerAll registrations).plugin coordinate = .ok plugin ↔
      ∃ r ∈ registered registrations, r.coordinate.key = coordinate.key ∧ r.owned = plugin := by
  rw [← find?_plugins_eq_some_iff, Catalog.plugin]
  cases Keyed.find? coordinate.key (({} : Catalog).registerAll registrations).plugins <;> simp

/-- A short name is answered with the last plugin that has declared it, whether or not that has been
replaced. -/
theorem resolveShorthand_eq_ok_iff :
    (({} : Catalog).registerAll registrations).resolveShorthand shorthand = .ok coordinate ↔
      ∃ plugin, lastNamed shorthand registrations = some plugin ∧
        plugin.coordinate = coordinate := by
  rw [resolveShorthand, find?_shorthands]
  cases lastNamed shorthand registrations <;> simp

/-- A short name is unknown exactly if no registration has declared it. -/
theorem resolveShorthand_eq_error_iff {e : BuildError} :
    (({} : Catalog).registerAll registrations).resolveShorthand shorthand = .error e ↔
      e = Fault.unknownShorthand shorthand ∧
        ∀ plugin ∈ registrations, plugin.shorthand ≠ some shorthand := by
  rw [resolveShorthand, find?_shorthands, ← lastNamed_eq_none_iff]
  cases lastNamed shorthand registrations <;> simp [eq_comm]

/-! ### Names that outlive their registrations -/

/-- A short name is answered with the last plugin that declares it among the registrations that have
not been replaced. -/
def AnswersCurrently (registrations : List PluginDescriptor) (shorthand : String) : Prop :=
  ∀ coordinate,
    (({} : Catalog).registerAll registrations).resolveShorthand shorthand = .ok coordinate ↔
      ∃ plugin, lastNamed shorthand (registered registrations) = some plugin ∧
        plugin.coordinate = coordinate

/-- Nothing is registered but what has been. -/
theorem registered_subset (registrations : List PluginDescriptor) :
    registered registrations ⊆ registrations := by
  induction registrations using List.reverseRecOn with
  | nil => exact List.Subset.refl _
  | append_singleton registrations last ih =>
    intro plugin hplugin
    rcases mem_registered_concat_iff.1 hplugin with ⟨hold, -⟩ | rfl
    · exact List.mem_append_left _ (ih hold)
    · exact List.mem_append_right _ List.mem_cons_self

/-- A key that has been registered stays registered. -/
theorem exists_registered_of_mem (h : plugin ∈ registrations) :
    ∃ r ∈ registered registrations, r.coordinate.key = plugin.coordinate.key := by
  induction registrations using List.reverseRecOn with
  | nil => cases h
  | append_singleton registrations last ih =>
    by_cases hkey : plugin.coordinate.key = last.coordinate.key
    · exact ⟨last, mem_registered_concat_iff.2 (.inr rfl), hkey.symm⟩
    · have hold : plugin ∈ registrations := by
        rcases List.mem_append.1 h with hold | hlast
        · exact hold
        · exact absurd (congrArg (·.coordinate.key) (List.mem_singleton.1 hlast)) hkey
      obtain ⟨r, hr, heq⟩ := ih hold
      exact ⟨r, mem_registered_concat_iff.2 (.inl ⟨hr, heq ▸ hkey⟩), heq⟩

/-- The last registration with a short name is the last one of those that have not been replaced, if
it is one of them. -/
theorem lastNamed_registered (h : lastNamed shorthand registrations = some plugin)
    (hplugin : plugin ∈ registered registrations) :
    lastNamed shorthand (registered registrations) = some plugin := by
  induction registrations using List.reverseRecOn with
  | nil => cases h
  | append_singleton registrations last ih =>
    rw [registered_concat]
    by_cases hname : last.shorthand = some shorthand
    · rw [lastNamed_concat_of_named hname] at h ⊢
      exact h
    · rw [lastNamed_concat_of_ne hname] at h ⊢
      rcases mem_registered_concat_iff.1 hplugin with ⟨hold, hne⟩ | rfl
      · exact lastNamed_filter (ih h hold) (by simpa using hne)
      · exact absurd (shorthand_of_lastNamed h) hname

/-- A registration that has not been replaced is the last one with a short name that it declares, if
the last one is of the same key. -/
theorem eq_of_mem_registered (h : lastNamed shorthand registrations = some plugin)
    (hother : other ∈ registered registrations) (hname : other.shorthand = some shorthand)
    (hkey : other.coordinate.key = plugin.coordinate.key) : other = plugin := by
  induction registrations using List.reverseRecOn with
  | nil => cases h
  | append_singleton registrations last ih =>
    rw [mem_registered_concat_iff] at hother
    by_cases hlast : last.shorthand = some shorthand
    · rw [lastNamed_concat_of_named hlast] at h
      obtain rfl := Option.some.inj h
      exact hother.resolve_left fun hold => hold.2 hkey
    · rw [lastNamed_concat_of_ne hlast] at h
      rcases hother with ⟨hold, -⟩ | rfl
      · exact ih h hold
      · exact absurd hname hlast

/-- The answer is the current one exactly if the last registration with the short name has not been
replaced. -/
theorem answersCurrently_iff : AnswersCurrently registrations shorthand ↔
    ∀ plugin, lastNamed shorthand registrations = some plugin →
      plugin ∈ registered registrations := by
  simp only [AnswersCurrently, resolveShorthand_eq_ok_iff]
  constructor
  · intro h plugin hlast
    obtain ⟨current, hcurrent, hcoordinate⟩ := (h plugin.coordinate).1 ⟨plugin, hlast, rfl⟩
    have hmem : current ∈ registered registrations :=
      (List.mem_filter.1 (List.mem_of_getLast? hcurrent)).1
    have heq : current = plugin := eq_of_mem_registered hlast hmem
      (shorthand_of_lastNamed hcurrent) (congrArg Coordinate.key hcoordinate)
    exact heq ▸ hmem
  · intro h coordinate
    cases hlast : lastNamed shorthand registrations with
    | none =>
      have hnone : lastNamed shorthand (registered registrations) = none :=
        lastNamed_eq_none_iff.2 fun plugin hplugin =>
          lastNamed_eq_none_iff.1 hlast plugin (registered_subset _ hplugin)
      rw [hnone]
    | some plugin => rw [lastNamed_registered hlast (h plugin hlast)]

/-- Whatever is registered in whatever order, the catalog has the plugins that have not been
replaced. A short name stands for the coordinate of the last registration that declares it, replaced
or not, and is unknown if none does. Some plugin of the key of that coordinate is in the catalog.
The answer is the last plugin with the short name among those that have not been replaced exactly if
that last registration is one of them. -/
theorem short_names_go_by_last_registration (registrations : List PluginDescriptor) :
    let c := ({} : Catalog).registerAll registrations
    (∀ coordinate plugin, c.plugin coordinate = .ok plugin ↔
      ∃ r ∈ registered registrations, r.coordinate.key = coordinate.key ∧ r.owned = plugin) ∧
    ∀ shorthand,
      (∀ coordinate, c.resolveShorthand shorthand = .ok coordinate ↔
        ∃ plugin, lastNamed shorthand registrations = some plugin ∧
          plugin.coordinate = coordinate) ∧
      (∀ e, c.resolveShorthand shorthand = .error e ↔
        e = Fault.unknownShorthand shorthand ∧
          ∀ plugin ∈ registrations, plugin.shorthand ≠ some shorthand) ∧
      (∀ coordinate, c.resolveShorthand shorthand = .ok coordinate →
        ∃ r ∈ registered registrations, r.coordinate.key = coordinate.key) ∧
      (AnswersCurrently registrations shorthand ↔
        ∀ plugin, lastNamed shorthand registrations = some plugin →
          plugin ∈ registered registrations) := by
  intro c
  refine ⟨fun _ _ => plugin_eq_ok_iff, fun shorthand => ⟨fun _ => resolveShorthand_eq_ok_iff,
    fun _ => resolveShorthand_eq_error_iff, fun coordinate h => ?_, answersCurrently_iff⟩⟩
  obtain ⟨plugin, hlast, rfl⟩ := resolveShorthand_eq_ok_iff.1 h
  exact exists_registered_of_mem (List.mem_filter.1 (List.mem_of_getLast? hlast)).1

end Catalog

/-! ### A plugin that gives its short name up -/

namespace Renaming

/-- A plugin with a short name. -/
def former : PluginDescriptor :=
  { coordinate := { group := "org.acme", artifact := "acme-plugin", version := some "1.0" }
    shorthand := some "acme" }

/-- The plugin in another version, without a short name. -/
def latter : PluginDescriptor :=
  { coordinate := { group := "org.acme", artifact := "acme-plugin", version := some "2.0" } }

end Renaming

/-- The short name still stands for the version that has been replaced. -/
theorem Catalog.short_name_outlives_registration :
    (({} : Catalog).registerAll [Renaming.former, Renaming.latter]).resolveShorthand "acme" =
      .ok Renaming.former.coordinate ∧
    (({} : Catalog).registerAll [Renaming.former, Renaming.latter]).plugin
      Renaming.former.coordinate = .ok Renaming.latter ∧
    registered [Renaming.former, Renaming.latter] = [Renaming.latter] ∧
    ¬ ∀ registrations shorthand, AnswersCurrently registrations shorthand := by
  have hresolve : (({} : Catalog).registerAll
      [Renaming.former, Renaming.latter]).resolveShorthand "acme" =
        .ok Renaming.former.coordinate := by
    rfl
  have hregistered : registered [Renaming.former, Renaming.latter] = [Renaming.latter] := by
    rfl
  refine ⟨hresolve, rfl, hregistered, fun h => ?_⟩
  obtain ⟨plugin, hlast, -⟩ := (h _ _ _).1 hresolve
  rw [hregistered] at hlast
  cases hlast

end PhasedBuild
