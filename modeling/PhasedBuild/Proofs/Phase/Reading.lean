import PhasedBuild.Phase.Point
import PhasedBuild.Proofs.Text

/-!
# Execution points that are read back

A text names an execution point by a lead, `before:`, `at:` or `after:`, and a phase. Without a lead
it names the point at the phase, and this is how that point is written. So a phase that begins with
a lead itself is not safe: the point at it is taken for another one when it is read back.

* `PhaseRef.parse_lead` and `PhaseRef.parse_of_isBare`: what texts with and without a lead read as.
* `PhaseRef.parse_display_iff`: which points are read back from their written form.
* `PhaseRef.written_form_reads_back_iff`: from which texts the points are that are read back.
-/

namespace PhasedBuild

namespace Side

/-- What stands before the phase in a text that names one of its points. -/
def lead (side : Side) : String :=
  side.name ++ ":"

@[simp] theorem lead_before : before.lead = "before:" := rfl

@[simp] theorem lead_during : during.lead = "at:" := rfl

@[simp] theorem lead_after : after.lead = "after:" := rfl

/-- No lead is the beginning of another one. -/
theorem lead_append_inj {side other : Side} {phase name : String}
    (h : side.lead ++ phase = other.lead ++ name) : side = other ∧ phase = name := by
  have hchars : side.lead.toList ++ phase.toList = other.lead.toList ++ name.toList := by
    rw [← String.toList_append, h, String.toList_append]
  cases side <;> cases other <;> simp at hchars ⊢
  all_goals exact String.toList_inj.1 hchars

end Side

namespace PhaseRef

/-- A phase that begins with no lead. -/
def IsBare (phase : String) : Prop :=
  ∀ (side : Side) (rest : String), phase ≠ side.lead ++ rest

/-- A phase begins with no lead exactly if none can be taken off. -/
theorem isBare_iff {phase : String} : IsBare phase ↔ ∀ side : Side,
    Text.after? side.lead phase = none := by
  simp only [IsBare, Text.after?_eq_none_iff]

/-! ### Reading -/

/-- Behind its own lead stands the phase. -/
theorem after?_lead_self (side : Side) (phase : String) :
    Text.after? side.lead (side.lead ++ phase) = some phase :=
  Text.after?_eq_some_iff.2 rfl

/-- A text with one lead does not begin with another. -/
theorem after?_lead_of_ne {side other : Side} (h : other ≠ side) (phase : String) :
    Text.after? other.lead (side.lead ++ phase) = none :=
  Text.after?_eq_none_iff.2 fun _ heq => h (Side.lead_append_inj heq).1.symm

/-- A text with a lead names the point of that side. -/
theorem parse_lead (side : Side) (phase : String) : parse (side.lead ++ phase) = ⟨side, phase⟩ := by
  have hself := after?_lead_self side phase
  have hother : ∀ other, other ≠ side → Text.after? other.lead (side.lead ++ phase) = none :=
    fun _ hne => after?_lead_of_ne hne phase
  cases side with
  | before => rw [parse, ← Side.lead_before, hself]
  | during =>
    rw [parse, ← Side.lead_before, hother .before nofun, ← Side.lead_during, hself]
  | after =>
    rw [parse, ← Side.lead_before, hother .before nofun, ← Side.lead_during,
      hother .during nofun, ← Side.lead_after, hself]

/-- A text without a lead names the point at itself. -/
theorem parse_of_isBare {phase : String} (h : IsBare phase) : parse phase = ⟨.during, phase⟩ := by
  have hnone := isBare_iff.1 h
  rw [parse, ← Side.lead_before, hnone .before, ← Side.lead_during, hnone .during,
    ← Side.lead_after, hnone .after]

/-! ### Reading what has been written -/

/-- The points before and after a phase are written with their leads. -/
theorem display_of_ne_during {side : Side} (h : side ≠ .during) (phase : String) :
    display ⟨side, phase⟩ = side.lead ++ phase := by
  cases side with
  | before => rfl
  | during => exact absurd rfl h
  | after => rfl

/-- A point is read back from its written form unless it is the point at a phase that begins with a
lead. -/
theorem parse_display_iff (r : PhaseRef) :
    parse r.display = r ↔ (r.side = .during → IsBare r.phase) := by
  obtain ⟨side, phase⟩ := r
  by_cases hside : side = .during
  · subst hside
    refine ⟨fun h _ => ?_, fun h => parse_of_isBare (h rfl)⟩
    -- with a lead the phase would be read as something shorter
    rintro other rest (rfl : phase = other.lead ++ rest)
    have hread : parse (other.lead ++ rest) = ⟨.during, other.lead ++ rest⟩ := h
    rw [parse_lead] at hread
    obtain ⟨rfl, hphase⟩ := PhaseRef.mk.inj hread
    have hlength := congrArg String.length hphase
    rw [String.length_append] at hlength
    exact absurd hlength (by simp)
  · rw [display_of_ne_during hside, parse_lead]
    exact iff_of_true rfl fun h => absurd h hside

/-- What a text reads as is read back from its written form, unless the text has the lead `at:` and
the phase behind it begins with a lead as well. What is read back from the written form of such a
text is what the phase alone reads as. -/
theorem written_form_reads_back_iff (s : String) :
    (parse (parse s).display = parse s ↔ ∀ phase, s = Side.during.lead ++ phase → IsBare phase) ∧
      ∀ phase, s = Side.during.lead ++ phase → parse (parse s).display = parse phase := by
  refine ⟨?_, ?_⟩
  · rw [parse_display_iff]
    by_cases hs : IsBare s
    · rw [parse_of_isBare hs]
      exact iff_of_true (fun _ => hs) fun phase heq => absurd heq (hs .during phase)
    · simp only [IsBare, not_forall, not_not] at hs
      obtain ⟨side, name, rfl⟩ := hs
      rw [parse_lead]
      constructor
      · intro h phase heq
        obtain ⟨rfl, rfl⟩ := Side.lead_append_inj heq
        exact h rfl
      · rintro h rfl
        exact h name rfl
  · rintro phase rfl
    rw [parse_lead]
    rfl

/-- The point at a phase of the name `before:package` is read back as the point before another
phase. -/
theorem point_at_package_is_lost :
    parse "at:before:package" = ⟨.during, "before:package"⟩ ∧
      parse (parse "at:before:package").display = ⟨.before, "package"⟩ ∧
      parse (parse "at:before:package").display ≠ parse "at:before:package" := by
  decide

end PhaseRef

end PhasedBuild
