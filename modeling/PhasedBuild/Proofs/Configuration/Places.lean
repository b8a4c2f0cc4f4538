import PhasedBuild.Configuration
import PhasedBuild.Proofs.Keyed

/-!
# Configurations place by place

A place among siblings is a name and the number of siblings of that name before it. Children are
known from their places and from what is at each of them (`ConfigNode.eq_of_places`), so a merge is
described by two equations:

* `ConfigNode.nodeAt?_mergeChildren`: at each place dominant and recessive children are merged;
* `ConfigNode.places_mergeChildren`: the places of dominant children come first, then the other
  places of recessive ones.

Both go by induction on the recessive children from the last one: it is merged into a list that has
at least as many nodes of each name as there are recessive ones before it (`count_recessive_le`), so
the place that it looks for is taken or is the next one of its name.

* `ConfigNode.merged_place_by_place`: what a merged tree has along every path of places.
-/

namespace PhasedBuild.ConfigNode

/-! ### Places -/

/-- A place among siblings: a name, and how many siblings of that name come before. -/
structure Place where
  name : String
  occurrence : Nat
deriving Repr, DecidableEq

/-- The node at a place. -/
def nodeAt? (nodes : List ConfigNode) (place : Place) : Option ConfigNode :=
  (nodes.filter (·.name == place.name))[place.occurrence]?

/-- The places that siblings of these names take, in their order, behind siblings of the names
`seen`. -/
def placesOf (seen : List String) : List String → List Place
  | [] => []
  | name :: rest => ⟨name, seen.count name⟩ :: placesOf (name :: seen) rest

/-- The names of nodes. -/
def namesOf (nodes : List ConfigNode) : List String :=
  nodes.map (·.name)

/-- The places of nodes, in the order of the nodes. -/
def places (nodes : List ConfigNode) : List Place :=
  placesOf [] (namesOf nodes)

section places

variable {nodes : List ConfigNode} {place : Place}

/-- The last of some siblings takes the place behind all those of its name. -/
theorem placesOf_concat (seen names : List String) (name : String) :
    placesOf seen (names ++ [name]) =
      placesOf seen names ++ [⟨name, seen.count name + names.count name⟩] := by
  induction names generalizing seen with
  | nil => simp [placesOf]
  | cons first rest ih =>
    have hcount : (first :: seen).count name + rest.count name =
        seen.count name + (first :: rest).count name := by
      rw [List.count_cons, List.count_cons]
      omega
    rw [List.cons_append, placesOf, ih, hcount, placesOf, List.cons_append]

/-- The places that siblings take are those whose number is below the number of siblings of that
name. -/
theorem mem_placesOf_iff {names : List String} :
    place ∈ placesOf [] names ↔ place.occurrence < names.count place.name := by
  obtain ⟨other, n⟩ := place
  induction names using List.reverseRecOn with
  | nil => simp [placesOf]
  | append_singleton names name ih =>
    rw [placesOf_concat, List.mem_append, ih, List.mem_singleton, List.count_append]
    by_cases h : name = other
    · subst h
      simp
      omega
    · simp [Ne.symm h, h]

/-- The siblings of a name are as many as their names say. -/
theorem length_filter_name (nodes : List ConfigNode) (name : String) :
    (nodes.filter (·.name == name)).length = (namesOf nodes).count name := by
  rw [namesOf, List.count_eq_countP, List.countP_map, List.countP_eq_length_filter]
  rfl

/-- There is a node at a place if there are more siblings of its name than come before. -/
theorem nodeAt?_isSome_iff :
    (nodeAt? nodes place).isSome ↔ place.occurrence < (namesOf nodes).count place.name := by
  simp [nodeAt?, ← length_filter_name]

/-- A place is taken if there are more siblings of its name than come before. -/
theorem mem_places_iff_lt :
    place ∈ places nodes ↔ place.occurrence < (namesOf nodes).count place.name :=
  mem_placesOf_iff

/-- A place is taken if there is a node at it. -/
theorem mem_places_iff : place ∈ places nodes ↔ (nodeAt? nodes place).isSome := by
  rw [mem_places_iff_lt, nodeAt?_isSome_iff]

/-- The place behind all nodes of a name is free. -/
theorem nodeAt?_next (nodes : List ConfigNode) (name : String) :
    nodeAt? nodes ⟨name, (namesOf nodes).count name⟩ = none := by
  rw [← Option.not_isSome_iff_eq_none, nodeAt?_isSome_iff]
  exact Nat.lt_irrefl _

/-- The node at a place is one of the siblings. -/
theorem mem_of_nodeAt? {node : ConfigNode} (h : nodeAt? nodes place = some node) : node ∈ nodes :=
  List.mem_of_mem_filter (List.mem_of_getElem? h)

/-- One more sibling takes one more place, and the others keep theirs. -/
theorem places_concat (nodes : List ConfigNode) (node : ConfigNode) :
    places (nodes ++ [node]) = places nodes ++ [⟨node.name, (namesOf nodes).count node.name⟩] := by
  simp [places, namesOf, placesOf_concat]

/-- One more sibling stands at its own place, and the others where they were. -/
theorem nodeAt?_concat (nodes : List ConfigNode) (node : ConfigNode) (place : Place) :
    nodeAt? (nodes ++ [node]) place =
      if place = ⟨node.name, (namesOf nodes).count node.name⟩ then some node
      else nodeAt? nodes place := by
  obtain ⟨name, n⟩ := place
  unfold nodeAt?
  by_cases h : node.name = name
  · subst h
    have hfilter : (nodes ++ [node]).filter (·.name == node.name) =
        nodes.filter (·.name == node.name) ++ [node] := by simp
    rw [hfilter, ← length_filter_name]
    simp only [Place.mk.injEq, true_and]
    grind
  · simp [h, Ne.symm h]

/-- Each node is at its place. -/
theorem map_nodeAt?_places (nodes : List ConfigNode) :
    (places nodes).map (nodeAt? nodes) = nodes.map some := by
  induction nodes using List.reverseRecOn with
  | nil => rfl
  | append_singleton nodes node ih =>
    have hbefore : (places nodes).map (nodeAt? (nodes ++ [node])) =
        (places nodes).map (nodeAt? nodes) := by
      refine List.map_congr_left fun place hplace => ?_
      rw [nodeAt?_concat, if_neg]
      rintro rfl
      rw [mem_places_iff, nodeAt?_next] at hplace
      cases hplace
    rw [places_concat, List.map_append, List.map_append, hbefore, ih, List.map_singleton,
      nodeAt?_concat, if_pos rfl, List.map_singleton]

/-- Nodes are known from their places and from what is at each place. -/
theorem eq_of_places {others : List ConfigNode} (hplaces : places nodes = places others)
    (hnodes : ∀ place, nodeAt? nodes place = nodeAt? others place) : nodes = others := by
  refine (List.map_inj_right fun _ _ => Option.some.inj).1 ?_
  rw [← map_nodeAt?_places, ← map_nodeAt?_places, hplaces, funext hnodes]

/-- There are at least as many nodes of a name where each of their places is taken. -/
theorem count_le_count_of_isSome {others : List ConfigNode}
    (h : ∀ place, (nodeAt? nodes place).isSome → (nodeAt? others place).isSome) (name : String) :
    (namesOf nodes).count name ≤ (namesOf others).count name := by
  refine le_of_forall_lt fun n hn => ?_
  have hplace := h ⟨name, n⟩
  rw [nodeAt?_isSome_iff, nodeAt?_isSome_iff] at hplace
  exact hplace hn

end places

/-! ### One recessive child -/

section updateNth

variable {name : String} {change : ConfigNode → ConfigNode} {added : ConfigNode}

/-- Changing a sibling at a place keeps all names; if there is none, the one that is added comes
last. -/
theorem namesOf_updateNth (hchange : ∀ node, (change node).name = node.name)
    (hadded : added.name = name) (n : Nat) (nodes : List ConfigNode) :
    namesOf (updateNth name change added n nodes) =
      if n < (namesOf nodes).count name then namesOf nodes else namesOf nodes ++ [name] := by
  unfold namesOf
  induction nodes generalizing n with
  | nil => simp [updateNth, hadded]
  | cons node rest ih =>
    by_cases hname : node.name = name
    · cases n with
      | zero => simp [updateNth, hname, hchange]
      | succ n =>
        simp only [updateNth, if_pos hname, List.map_cons, ih]
        rw [hname, List.count_cons_self]
        simp only [Nat.succ_lt_succ_iff]
        split <;> rfl
    · simp only [updateNth, if_neg hname, List.map_cons, ih, List.count_cons_of_ne hname]
      split <;> rfl

/-- Changing a sibling does not matter to those of other names. -/
theorem filter_updateNth_of_ne {other : String} (hchange : ∀ node, (change node).name = node.name)
    (hadded : added.name = name) (h : other ≠ name) (n : Nat) (nodes : List ConfigNode) :
    (updateNth name change added n nodes).filter (·.name == other) =
      nodes.filter (·.name == other) := by
  induction nodes generalizing n with
  | nil => simp [updateNth, hadded, Ne.symm h]
  | cons node rest ih =>
    by_cases hname : node.name = name
    · cases n with
      | zero => simp [updateNth, hname, hchange, Ne.symm h]
      | succ n => simp [updateNth, hname, ih, Ne.symm h]
    · simp [updateNth, hname, List.filter_cons, ih]

/-- The node at the place is changed, or one is added there if the place is the next one. -/
theorem nodeAt?_updateNth (hchange : ∀ node, (change node).name = node.name)
    (hadded : added.name = name) {n : Nat} {nodes : List ConfigNode}
    (hn : n ≤ (namesOf nodes).count name) (place : Place) :
    nodeAt? (updateNth name change added n nodes) place =
      if place = ⟨name, n⟩ then some (((nodeAt? nodes place).map change).getD added)
      else nodeAt? nodes place := by
  obtain ⟨other, i⟩ := place
  by_cases hother : other = name
  · subst hother
    simp only [Place.mk.injEq, true_and]
    unfold nodeAt?
    dsimp only
    induction nodes generalizing n i with
    | nil =>
      obtain rfl : n = 0 := by simpa [namesOf] using hn
      cases i <;> simp [updateNth, hadded]
    | cons node rest ih =>
      by_cases hname : node.name = other
      · cases n with
        | zero => cases i <;> simp [updateNth, hname, hchange]
        | succ n =>
          have hrest : n ≤ (namesOf rest).count other := by simpa [namesOf, hname] using hn
          cases i with
          | zero => simp [updateNth, hname]
          | succ i => simpa [updateNth, hname] using ih i hrest
      · have hrest : n ≤ (namesOf rest).count other := by simpa [namesOf, hname] using hn
        simpa [updateNth, hname] using ih i hrest
  · rw [nodeAt?, filter_updateNth_of_ne hchange hadded hother, if_neg (by simp [hother]), nodeAt?]

/-- The place at which a node is changed or added is one of the places then. -/
theorem places_updateNth (hchange : ∀ node, (change node).name = node.name)
    (hadded : added.name = name) {n : Nat} {nodes : List ConfigNode}
    (hn : n ≤ (namesOf nodes).count name) :
    places (updateNth name change added n nodes) =
      if ⟨name, n⟩ ∈ places nodes then places nodes else places nodes ++ [⟨name, n⟩] := by
  rw [places, namesOf_updateNth hchange hadded]
  by_cases hfound : n < (namesOf nodes).count name
  · rw [if_pos hfound, if_pos (mem_places_iff_lt.2 hfound), places]
  · rw [if_neg hfound, if_neg fun hmem => hfound (mem_places_iff_lt.1 hmem), placesOf_concat,
      List.count_nil, Nat.zero_add, Nat.le_antisymm hn (Nat.not_lt.1 hfound), places]

end updateNth

/-! ### Configurations that may be missing -/

section mergeOptions

variable (dominant recessive : Option ConfigNode)

@[simp] theorem mergeOptions_none : mergeOptions dominant none = dominant := by
  cases dominant <;> rfl

/-- There is something merged if there is something to merge. -/
theorem isSome_mergeOptions :
    (mergeOptions dominant recessive).isSome = (dominant.isSome || recessive.isSome) := by
  cases dominant <;> rfl

/-- The dominant value counts, or else the recessive one. -/
theorem value_mergeOptions : (mergeOptions dominant recessive).bind (·.value) =
    (dominant.bind (·.value)).or (recessive.bind (·.value)) := by
  cases dominant with
  | none => rfl
  | some dominant =>
    cases recessive with
    | none => exact (Option.or_none).symm
    | some recessive => exact value_mergedOver dominant recessive

end mergeOptions

/-! ### All recessive children -/

/-- The last recessive child is merged last. -/
theorem mergeChildren_concat (merged : List ConfigNode) (seen : List String)
    (recessive : List ConfigNode) (last : ConfigNode) :
    mergeChildren merged seen (recessive ++ [last]) =
      updateNth last.name (fun dominant => dominant.mergedOver last) last
        (seen.count last.name + (namesOf recessive).count last.name)
        (mergeChildren merged seen recessive) := by
  induction recessive generalizing merged seen with
  | nil => simp [mergeChildren, namesOf]
  | cons child rest ih =>
    have hcount : (child.name :: seen).count last.name + (namesOf rest).count last.name =
        seen.count last.name + (namesOf (child :: rest)).count last.name := by
      rw [namesOf, namesOf, List.map_cons, List.count_cons, List.count_cons]
      omega
    rw [List.cons_append, mergeChildren, ih, hcount, mergeChildren]

section children

variable (dominant recessive : List ConfigNode)

/-- At each place dominant and recessive children are merged. -/
theorem nodeAt?_mergeChildren (place : Place) :
    nodeAt? (mergeChildren dominant [] recessive) place =
      mergeOptions (nodeAt? dominant place) (nodeAt? recessive place) := by
  induction recessive using List.reverseRecOn generalizing place with
  | nil => simp [mergeChildren, nodeAt?]
  | append_singleton recessive last ih =>
    have hcount : (namesOf recessive).count last.name ≤
        (namesOf (mergeChildren dominant [] recessive)).count last.name :=
      count_le_count_of_isSome (fun place hplace => by
        rw [ih, isSome_mergeOptions, hplace, Bool.or_true]) last.name
    rw [mergeChildren_concat, List.count_nil, Nat.zero_add,
      nodeAt?_updateNth (fun _ => name_mergedOver _ _) rfl hcount, nodeAt?_concat, ih]
    split
    next heq =>
      rw [heq, nodeAt?_next, mergeOptions_none]
      cases nodeAt? dominant ⟨last.name, (namesOf recessive).count last.name⟩ <;> rfl
    next => rfl

/-- Merging takes no sibling away. -/
theorem count_recessive_le (name : String) : (namesOf recessive).count name ≤
    (namesOf (mergeChildren dominant [] recessive)).count name := by
  refine count_le_count_of_isSome (fun place hplace => ?_) name
  rw [nodeAt?_mergeChildren, isSome_mergeOptions, hplace, Bool.or_true]

/-- The places of dominant children come first, then those of recessive ones that are not among
them. -/
theorem places_mergeChildren :
    places (mergeChildren dominant [] recessive) =
      places dominant ++ (places recessive).filter (· ∉ places dominant) := by
  induction recessive using List.reverseRecOn with
  | nil => simp [mergeChildren, places, namesOf, placesOf]
  | append_singleton recessive last ih =>
    have hmem : ⟨last.name, (namesOf recessive).count last.name⟩ ∈
          places (mergeChildren dominant [] recessive) ↔
        ⟨last.name, (namesOf recessive).count last.name⟩ ∈ places dominant := by
      rw [mem_places_iff, mem_places_iff, nodeAt?_mergeChildren, nodeAt?_next, mergeOptions_none]
    rw [mergeChildren_concat, List.count_nil, Nat.zero_add,
      places_updateNth (fun _ => name_mergedOver _ _) rfl (count_recessive_le _ _ _),
      places_concat, List.filter_append]
    by_cases hplace : ⟨last.name, (namesOf recessive).count last.name⟩ ∈ places dominant
    · rw [if_pos (hmem.2 hplace), ih]
      simp [hplace]
    · rw [if_neg (mt hmem.1 hplace), ih]
      simp [hplace]

end children

/-! ### Merged trees -/

section tree

variable (dominant recessive : ConfigNode)

/-- The children of what is merged are the children merged. -/
@[simp] theorem children_mergedOver : (dominant.mergedOver recessive).children =
    mergeChildren dominant.children [] recessive.children := by
  cases recessive; simp [mergedOver]

/-- The attributes of what is merged are the dominant ones, filled up from the recessive ones. -/
@[simp] theorem attributes_mergedOver : (dominant.mergedOver recessive).attributes =
    Keyed.fillFrom dominant.attributes recessive.attributes := by
  cases recessive; simp [mergedOver]

/-- The node that a path of places leads to. -/
def at? (node : ConfigNode) : List Place → Option ConfigNode
  | [] => some node
  | place :: path => (nodeAt? node.children place).bind (·.at? path)

/-- The children of a node that may be missing. -/
def childrenIn (node : Option ConfigNode) : List ConfigNode :=
  (node.map (·.children)).getD []

/-- The places of the children of a node that may be missing. -/
def placesIn (node : Option ConfigNode) : List Place :=
  places (childrenIn node)

/-- Trees are merged along every path. -/
theorem at?_mergedOver (path : List Place) :
    (dominant.mergedOver recessive).at? path =
      mergeOptions (dominant.at? path) (recessive.at? path) := by
  induction path generalizing dominant recessive with
  | nil => rfl
  | cons place path ih =>
    rw [at?, children_mergedOver, nodeAt?_mergeChildren, at?, at?]
    cases nodeAt? dominant.children place with
    | none => rfl
    | some upper =>
      cases nodeAt? recessive.children place with
      | none => exact (mergeOptions_none _).symm
      | some lower => exact ih upper lower

/-- The dominant attribute counts, or else the recessive one. -/
theorem attribute?_mergedOver (key : String) : (dominant.mergedOver recessive).attribute? key =
    (dominant.attribute? key).or (recessive.attribute? key) := by
  rw [attribute?, attributes_mergedOver, Keyed.find?_fillFrom, attribute?, attribute?]

/-- So it is where either of the two may be missing. -/
theorem attribute?_mergeOptions (dominant recessive : Option ConfigNode) (key : String) :
    (mergeOptions dominant recessive).bind (·.attribute? key) =
      (dominant.bind (·.attribute? key)).or (recessive.bind (·.attribute? key)) := by
  cases dominant with
  | none => rfl
  | some dominant =>
    cases recessive with
    | none => exact (Option.or_none).symm
    | some recessive => exact attribute?_mergedOver dominant recessive key

/-- The places of what is merged are the dominant ones and then the recessive ones that are new. -/
theorem placesIn_mergeOptions (dominant recessive : Option ConfigNode) :
    placesIn (mergeOptions dominant recessive) =
      placesIn dominant ++ (placesIn recessive).filter (· ∉ placesIn dominant) := by
  cases dominant with
  | none => simp [placesIn, childrenIn, mergeOptions, places, namesOf, placesOf]
  | some dominant =>
    cases recessive with
    | none => simp [placesIn, childrenIn, places, namesOf, placesOf]
    | some recessive =>
      rw [mergeOptions, overOption, placesIn, childrenIn, Option.map_some, Option.getD_some,
        children_mergedOver, places_mergeChildren]
      rfl

/-- A path leads on from where it has led. -/
theorem at?_concat (node : ConfigNode) (path : List Place) (place : Place) :
    node.at? (path ++ [place]) = nodeAt? (childrenIn (node.at? path)) place := by
  induction path generalizing node with
  | nil =>
    show (nodeAt? node.children place).bind (·.at? []) = nodeAt? node.children place
    cases nodeAt? node.children place <;> rfl
  | cons first path ih =>
    rw [List.cons_append, at?, at?]
    cases nodeAt? node.children first with
    | none => rfl
    | some child => exact ih child

/-- Along every path of places a merged tree has a node exactly if one of the two trees has, with
the value and the attributes of the dominant one, or else of the recessive one. Its children are at
the places of the dominant one's children, in their order, and then at the other places of the
recessive one's children, in theirs. -/
theorem merged_place_by_place (path : List Place) :
    let merged := (dominant.mergedOver recessive).at? path
    let upper := dominant.at? path
    let lower := recessive.at? path
    (merged.isSome ↔ upper.isSome ∨ lower.isSome) ∧
    merged.bind (·.value) = (upper.bind (·.value)).or (lower.bind (·.value)) ∧
    (∀ key, merged.bind (·.attribute? key) =
      (upper.bind (·.attribute? key)).or (lower.bind (·.attribute? key))) ∧
    placesIn merged = placesIn upper ++ (placesIn lower).filter (· ∉ placesIn upper) ∧
    (childrenIn merged).map some =
      (placesIn merged).map fun place => (dominant.mergedOver recessive).at? (path ++ [place]) := by
  intro merged upper lower
  have hmerged : merged = mergeOptions upper lower := at?_mergedOver dominant recessive path
  refine ⟨?_, ?_, fun key => ?_, ?_, ?_⟩
  · rw [hmerged, isSome_mergeOptions, Bool.or_eq_true]
  · rw [hmerged, value_mergeOptions]
  · rw [hmerged, attribute?_mergeOptions]
  · rw [hmerged, placesIn_mergeOptions]
  · simp only [at?_concat]
    exact (map_nodeAt?_places _).symm

-- The second pattern has a partner without a value, and the third has none.
example :
    let pattern (value : Option String) : ConfigNode := { name := "include", value }
    let upper := { name := "includes", children := [pattern (some "**/A.java"), pattern none] }
    let lower := { name := "includes", children :=
      [pattern (some "**/*Test.java"), pattern (some "**/*IT.java"), pattern (some "**/B.java")] }
    (mergedOver upper lower).children.map (·.value) =
      [some "**/A.java", some "**/*IT.java", some "**/B.java"] := by decide

end tree

end PhasedBuild.ConfigNode
