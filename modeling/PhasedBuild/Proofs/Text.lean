import Mathlib.Data.List.DropRight
import PhasedBuild.Text.Characters
import PhasedBuild.Text.Split

/-!
# Texts that are taken apart

* `Text.splitOn_eq_iff`: the pieces between separators are those texts without the separator that
  make up the text when they are joined by it.
* `Text.splitOnce?_eq_some_iff`: a text is cut at its first separator.
* `Text.after?_eq_some_iff`: what follows a beginning makes up the text with it.
* `Text.trim_trim`: a text without blanks at its ends has none to lose.
-/

namespace PhasedBuild.Text

variable {sep : Char}

/-! ### Pieces -/

/-- Characters are split as lists are. -/
theorem splitChars_eq_splitOn (sep : Char) (cs : List Char) :
    splitChars sep cs = cs.splitOn sep := by
  induction cs with
  | nil => simp [splitChars]
  | cons c cs ih =>
    rw [splitChars, List.splitOn_cons_eq_if_modifyHead, ih]
    simp only [beq_iff_eq]
    split
    next => rfl
    next =>
      rcases h : cs.splitOn sep with _ | ⟨piece, rest⟩
      · exact absurd h (List.splitOn_ne_nil sep cs)
      · rfl

/-- No piece has the separator in it. -/
theorem notMem_of_mem_splitChars {cs piece : List Char} (h : piece ∈ splitChars sep cs) :
    sep ∉ piece := by
  induction cs generalizing piece with
  | nil => simp_all [splitChars]
  | cons c cs ih =>
    rw [splitChars] at h
    split at h
    next =>
      rcases List.mem_cons.1 h with rfl | h
      · exact List.not_mem_nil
      · exact ih h
    next hc =>
      split at h
      next heq => exact absurd heq (splitChars_ne_nil sep cs)
      next first rest heq =>
        rw [heq] at ih
        rcases List.mem_cons.1 h with rfl | h
        · simp [Ne.symm hc, ih List.mem_cons_self]
        · exact ih (List.mem_cons_of_mem _ h)

/-- The pieces are the only ones without the separator that make up the characters with one
separator between each two. -/
theorem splitChars_eq_iff {cs : List Char} {pieces : List (List Char)} :
    splitChars sep cs = pieces ↔
      pieces ≠ [] ∧ (∀ piece ∈ pieces, sep ∉ piece) ∧ cs = [sep].intercalate pieces := by
  constructor
  · rintro rfl
    refine ⟨splitChars_ne_nil sep cs, fun _ => notMem_of_mem_splitChars, ?_⟩
    rw [splitChars_eq_splitOn, List.intercalate_splitOn]
  · rintro ⟨hne, hpieces, rfl⟩
    rw [splitChars_eq_splitOn]
    exact List.splitOn_intercalate sep hpieces hne

/-- So it is with texts. -/
theorem splitOn_eq_iff {s : String} {parts : List String} :
    splitOn sep s = parts ↔ parts ≠ [] ∧ (∀ part ∈ parts, sep ∉ part.toList) ∧
      s.toList = [sep].intercalate (parts.map String.toList) := by
  have hchars : splitOn sep s = parts ↔ splitChars sep s.toList = parts.map String.toList := by
    constructor
    · rintro rfl
      simp [splitOn]
    · intro h
      simp [splitOn, h]
  rw [hchars, splitChars_eq_iff]
  simp

/-- A text mentions its characters. -/
theorem mentions_iff {c : Char} {s : String} : mentions c s = true ↔ c ∈ s.toList := by
  simp [mentions]

/-- What occurs in texts that are joined, other than the separator, occurs in one of them. -/
theorem mem_intercalate_iff {c : Char} (hc : c ≠ sep) {pieces : List (List Char)} :
    c ∈ [sep].intercalate pieces ↔ ∃ piece ∈ pieces, c ∈ piece := by
  induction pieces with
  | nil => simp
  | cons piece rest ih =>
    rcases rest with _ | ⟨next, rest⟩
    · simp
    · rw [List.intercalate_cons_cons]
      simp [ih, hc]

/-! ### One cut -/

/-- A text without the separator cannot be split. -/
theorem splitOnce?_of_notMem {s : String} (h : sep ∉ s.toList) : splitOnce? sep s = none := by
  have hdrop : s.toList.dropWhile (· != sep) = [] := by
    rw [List.dropWhile_eq_nil_iff]
    intro c hc
    simp [ne_of_mem_of_not_mem hc h]
  rw [splitOnce?, hdrop]

/-- A text is split at the first separator. -/
theorem splitOnce?_of_eq {s front back : String} (hfront : sep ∉ front.toList)
    (hs : s.toList = front.toList ++ sep :: back.toList) :
    splitOnce? sep s = some (front, back) := by
  have hpos : ∀ c ∈ front.toList, (c != sep) = true := by
    intro c hc
    simp [ne_of_mem_of_not_mem hc hfront]
  simp [splitOnce?, hs, List.takeWhile_append_of_pos hpos, List.dropWhile_append_of_pos hpos]

/-- A text cannot be split exactly if it does not mention the separator. -/
theorem splitOnce?_eq_none_iff {s : String} : splitOnce? sep s = none ↔ sep ∉ s.toList := by
  refine ⟨fun h hmem => ?_, splitOnce?_of_notMem⟩
  obtain ⟨front, back, hs, hfront⟩ := List.eq_append_cons_of_mem hmem
  have hcut : splitOnce? sep s = some (String.ofList front, String.ofList back) :=
    splitOnce?_of_eq (by simpa using hfront) (by simpa using hs)
  rw [hcut] at h
  cases h

/-- The front of a split text is what stands before the first separator, and the back is what stands
behind it. -/
theorem splitOnce?_eq_some_iff {s front back : String} :
    splitOnce? sep s = some (front, back) ↔
      sep ∉ front.toList ∧ s.toList = front.toList ++ sep :: back.toList := by
  refine ⟨fun h => ?_, fun ⟨hfront, hs⟩ => splitOnce?_of_eq hfront hs⟩
  have hmem : sep ∈ s.toList := by
    by_contra hnot
    rw [splitOnce?_of_notMem hnot] at h
    cases h
  obtain ⟨first, rest, hs, hfirst⟩ := List.eq_append_cons_of_mem hmem
  have hcut : splitOnce? sep s = some (String.ofList first, String.ofList rest) :=
    splitOnce?_of_eq (by simpa using hfirst) (by simpa using hs)
  rw [hcut] at h
  obtain ⟨rfl, rfl⟩ := Prod.mk.inj (Option.some.inj h)
  simpa using ⟨hfirst, hs⟩

/-! ### Beginnings -/

/-- What stands behind a lead is the rest of the text. -/
theorem after?_eq_some_iff {lead s rest : String} :
    after? lead s = some rest ↔ s = lead ++ rest := by
  rw [after?, Option.map_eq_some_iff]
  simp only [afterChars?_eq_some]
  constructor
  · rintro ⟨chars, hs, rfl⟩
    rw [← String.toList_inj, hs, String.toList_append, String.toList_ofList]
  · rintro rfl
    exact ⟨rest.toList, String.toList_append, String.ofList_toList⟩

/-- Nothing stands behind a lead with which the text does not begin. -/
theorem after?_eq_none_iff {lead s : String} : after? lead s = none ↔ ∀ rest, s ≠ lead ++ rest := by
  rw [Option.eq_none_iff_forall_ne_some]
  exact forall_congr' fun rest => not_congr after?_eq_some_iff

/-! ### Ends -/

/-- Blanks are dropped from the left and then from the right. -/
theorem trimChars_eq_rdropWhile (cs : List Char) :
    trimChars cs = (cs.dropWhile isBlank).rdropWhile isBlank := rfl

/-- A text without blanks stays as it is. -/
theorem trimChars_of_forall {cs : List Char} (h : ∀ c ∈ cs, isBlank c = false) :
    trimChars cs = cs := by
  have hfront : cs.dropWhile isBlank = cs :=
    List.dropWhile_eq_self_iff.2 fun hpos => by simp [h _ (List.getElem_mem hpos)]
  rw [trimChars_eq_rdropWhile, hfront]
  exact List.rdropWhile_eq_self_iff.2 fun hne => by simp [h _ (List.getLast_mem hne)]

/-- There is nothing to be trimmed from characters that have been. -/
theorem trimChars_trimChars (cs : List Char) : trimChars (trimChars cs) = trimChars cs := by
  -- what is left after a cut at the end begins like what was there before the cut
  have hfront : (trimChars cs).dropWhile isBlank = trimChars cs := by
    rw [List.dropWhile_eq_self_iff]
    intro hpos
    have hprefix := List.rdropWhile_prefix isBlank (cs.dropWhile isBlank)
    have hne : cs.dropWhile isBlank ≠ [] := List.ne_nil_of_length_pos
      (Nat.lt_of_lt_of_le hpos hprefix.length_le)
    have hhead : (trimChars cs)[0] = (cs.dropWhile isBlank).head hne := by
      rw [List.head_eq_getElem]
      exact hprefix.getElem hpos
    rw [hhead, List.head_dropWhile_not isBlank hne]
    exact Bool.false_ne_true
  rw [trimChars_eq_rdropWhile (trimChars cs), hfront, trimChars_eq_rdropWhile cs,
    List.rdropWhile_idempotent]

/-- There is nothing to be trimmed from a text that has been. -/
theorem trim_trim (s : String) : trim (trim s) = trim s := by
  rw [← String.toList_inj, toList_trim, toList_trim, trimChars_trimChars]

end PhasedBuild.Text
