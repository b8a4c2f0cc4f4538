import Mathlib.Data.List.Forall2

/-!
# Results that may be errors

* `exists_of_bind_eq_ok`: a computation in two parts succeeds by both of them.
* `mapM_eq_ok_iff`: a computation for each item of a list succeeds if it does for all of them.
* `mapM_eq_error_iff`: otherwise it ends with the error for the first item for which it fails.
-/

namespace PhasedBuild

variable {ε α β : Type}

/-- What succeeds in two parts succeeds in each. -/
theorem exists_of_bind_eq_ok {x : Except ε α} {f : α → Except ε β} {b : β}
    (h : x >>= f = .ok b) : ∃ a, x = .ok a ∧ f a = .ok b := by
  cases x with
  | error => cases h
  | ok a => exact ⟨a, rfl, h⟩

/-- A success has a result. -/
theorem exists_of_isOk {x : Except ε α} (h : x.isOk = true) : ∃ a, x = .ok a := by
  cases x with
  | error => cases h
  | ok a => exact ⟨a, rfl⟩

/-- What fails in two parts fails in the first, or in the second after a success of the first. -/
theorem bind_eq_error_iff {x : Except ε α} {f : α → Except ε β} {e : ε} :
    x >>= f = .error e ↔ x = .error e ∨ ∃ a, x = .ok a ∧ f a = .error e := by
  cases x <;> simp [bind, Except.bind]

/-- A changed result is that of a success. -/
theorem map_eq_ok_iff {x : Except ε α} {f : α → β} {b : β} :
    x.map f = .ok b ↔ ∃ a, x = .ok a ∧ f a = b := by
  cases x <;> simp [Except.map]

/-- Changing results changes no error. -/
theorem map_eq_error_iff {x : Except ε α} {f : α → β} {e : ε} :
    x.map f = .error e ↔ x = .error e := by
  cases x <;> simp [Except.map]

section lists

variable {f : α → Except ε β} {l : List α} {bs : List β}

/-- What succeeds for a list has a result for each of its elements. -/
theorem forall₂_of_mapM_eq_ok (h : l.mapM f = .ok bs) :
    List.Forall₂ (fun a b => f a = .ok b) l bs := by
  induction l generalizing bs with
  | nil =>
    obtain rfl := Except.ok.inj h
    exact .nil
  | cons a rest ih =>
    rw [List.mapM_cons] at h
    obtain ⟨b, hb, h⟩ := exists_of_bind_eq_ok h
    obtain ⟨others, hothers, h⟩ := exists_of_bind_eq_ok h
    obtain rfl := Except.ok.inj h
    exact .cons hb (ih hothers)

/-- Something succeeds for a list exactly if it does for each element, with the results in the same
order. -/
theorem mapM_eq_ok_iff : l.mapM f = .ok bs ↔ List.Forall₂ (fun a b => f a = .ok b) l bs := by
  refine ⟨forall₂_of_mapM_eq_ok, fun h => ?_⟩
  induction h with
  | nil => rfl
  | cons ha _ ih =>
    rw [List.mapM_cons, ha, ih]
    rfl

/-- Every result for a list is that of one of its elements. -/
theorem exists_of_mapM_eq_ok (h : l.mapM f = .ok bs) : ∀ b ∈ bs, ∃ a ∈ l, f a = .ok b := by
  have hall := forall₂_of_mapM_eq_ok h
  intro b hb
  obtain ⟨i, hi, rfl⟩ := List.getElem_of_mem hb
  have hlt : i < l.length := hall.length_eq ▸ hi
  exact ⟨l[i], List.getElem_mem hlt, hall.get hlt hi⟩

/-- Something succeeds for a list if it does for each of its elements. -/
theorem exists_mapM_eq_ok_iff : (∃ bs, l.mapM f = .ok bs) ↔ ∀ a ∈ l, ∃ b, f a = .ok b := by
  simp only [mapM_eq_ok_iff]
  induction l with
  | nil => simp
  | cons a rest ih =>
    rw [List.forall_mem_cons, ← ih]
    constructor
    · rintro ⟨_, h⟩
      cases h with
      | cons ha hrest => exact ⟨⟨_, ha⟩, _, hrest⟩
    · rintro ⟨⟨b, ha⟩, bs, hrest⟩
      exact ⟨b :: bs, .cons ha hrest⟩

/-- What comes after an error does not matter. -/
theorem mapM_eq_error_of_first {front back : List α} {bad : α} {e : ε}
    (hfront : ∀ a ∈ front, ∃ b, f a = .ok b) (hbad : f bad = .error e) :
    (front ++ bad :: back).mapM f = .error e := by
  induction front with
  | nil =>
    rw [List.nil_append, List.mapM_cons, hbad]
    rfl
  | cons a rest ih =>
    obtain ⟨⟨b, hb⟩, hrest⟩ := List.forall_mem_cons.1 hfront
    rw [List.cons_append, List.mapM_cons, hb, ih hrest]
    rfl

/-- What fails for a list fails with the error of the first element for which it fails. -/
theorem mapM_eq_error_iff {e : ε} : l.mapM f = .error e ↔ ∃ front bad back,
    l = front ++ bad :: back ∧ (∀ a ∈ front, ∃ b, f a = .ok b) ∧ f bad = .error e := by
  constructor
  · intro h
    induction l with
    | nil => cases h
    | cons a rest ih =>
      rw [List.mapM_cons] at h
      cases ha : f a with
      | error other =>
        rw [ha] at h
        obtain rfl := Except.error.inj h
        exact ⟨[], a, rest, rfl, by simp, ha⟩
      | ok b =>
        have hrest : rest.mapM f = .error e := by
          cases hmap : rest.mapM f <;> rw [ha, hmap] at h
          · exact h
          · cases h
        obtain ⟨front, bad, back, rfl, hfront, hbad⟩ := ih hrest
        exact ⟨a :: front, bad, back, rfl, List.forall_mem_cons.2 ⟨⟨b, ha⟩, hfront⟩, hbad⟩
  · rintro ⟨front, bad, back, rfl, hfront, hbad⟩
    exact mapM_eq_error_of_first hfront hbad

end lists

end PhasedBuild
