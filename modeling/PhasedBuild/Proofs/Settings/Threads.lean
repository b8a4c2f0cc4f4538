import Mathlib.Tactic.IntervalCases
import PhasedBuild.Proofs.Text
import PhasedBuild.Settings

/-!
# Degrees of concurrency

Three layers of settings give a degree of concurrency: the file, the environment and the command
line. The file may give zero, which counts as one; the texts of the other two may not.

* `Settings.exists_threads_iff`: a text can ask for any count from one on, and for no other number.
* `Settings.degree_le_of_ofDatum?`: what a file gives is a count.
* `Settings.degree_of_withEnvironment`: the environment leaves that degree or gives its own.
-/

namespace PhasedBuild

/-! ### Decimal digits -/

namespace Decimal

/-- A digit is read as itself. -/
theorem digit?_digitChar {n : Nat} (h : n < 10) : digit? 10 n.digitChar = some n := by
  interval_cases n <;> rfl

/-- One more digit makes a number ten times as large, and adds itself. -/
theorem nat?_concat {cs : List Char} (hcs : cs ≠ []) (c : Char) :
    nat? (cs ++ [c]) = (nat? cs).bind fun n => (digit? 10 c).map (10 * n + ·) := by
  obtain ⟨first, rest, rfl⟩ := List.exists_cons_of_ne_nil hcs
  simp only [nat?, natIn?, List.cons_append]
  rw [← List.cons_append, List.foldlM_append]
  cases (first :: rest).foldlM (fun n c => (digit? 10 c).map (10 * n + ·)) 0 with
  | none => rfl
  | some n => simp

/-- Written digits are read as the number that they write. -/
theorem nat?_toDigits (n : Nat) : nat? (Nat.toDigits 10 n) = some n := by
  induction n using Nat.strongRecOn with
  | ind n ih =>
    rw [Nat.toDigits_eq_if (by decide)]
    split
    case isTrue hlt => simp [nat?, natIn?, digit?_digitChar hlt]
    case isFalse hge =>
      rw [nat?_concat Nat.toDigits_ne_nil, ih (n / 10) (by omega),
        Option.bind_some, digit?_digitChar (Nat.mod_lt n (by decide)), Option.map_some]
      congr 1
      omega

end Decimal

namespace Settings

/-! ### Texts -/

/-- A text is read as a count only if it fits in one. -/
theorem count?_le {spec : String} {n : Nat} (h : count? spec = some n) : n ≤ Datum.maxCount := by
  simp only [count?, Option.filter_eq_some_iff, decide_eq_true_eq] at h
  exact h.2

/-- A multiple of the cores is cut off at the largest count. -/
theorem scaled_le (cores : Nat) (factor : Decimal.Reading) :
    scaled cores factor ≤ Datum.maxCount :=
  Nat.le_of_lt_succ (UInt64.toNat_lt _)

/-- No more threads can be asked for than fit in a count. -/
theorem requested?_le {cores : Nat} {spec : String} {n : Nat} (h : requested? cores spec = some n) :
    n ≤ Datum.maxCount := by
  unfold requested? at h
  split at h
  · obtain ⟨factor, -, rfl⟩ := Option.map_eq_some_iff.1 h
    exact scaled_le cores factor
  · obtain ⟨factor, -, rfl⟩ := Option.map_eq_some_iff.1 h
    exact scaled_le cores factor
  · exact count?_le h

/-- A text is a number of threads exactly if it asks for one thread at least. -/
theorem threads_eq_ok_iff {cores : Nat} {text : String} {n : Nat} :
    threads cores text = .ok n ↔ requested? cores (Text.trim text) = some n ∧ 1 ≤ n := by
  simp only [threads]
  split
  case h_1 h => simp [h]
  case h_2 h =>
    rw [h]
    exact iff_of_false nofun fun ⟨hzero, hpos⟩ => Nat.ne_of_lt hpos (Option.some.inj hzero)
  case h_3 m hne h =>
    rw [h]
    refine ⟨fun hm => ?_, fun ⟨hm, _⟩ => congrArg Except.ok (Option.some.inj hm)⟩
    obtain rfl := Except.ok.inj hm
    exact ⟨rfl, Nat.one_le_iff_ne_zero.2 hne⟩

/-- A number of threads is one at least, and fits in a count. -/
theorem threads_bounds {cores : Nat} {text : String} {n : Nat} (h : threads cores text = .ok n) :
    1 ≤ n ∧ n ≤ Datum.maxCount := by
  obtain ⟨hrequested, hpos⟩ := threads_eq_ok_iff.1 h
  exact ⟨hpos, requested?_le hrequested⟩

/-! ### Counts as texts -/

/-- A written number has digits only. -/
theorem isDigit_of_mem_toDigits {n : Nat} {c : Char} (h : c ∈ Nat.toDigits 10 n) :
    c.isDigit = true :=
  Nat.isDigit_of_mem_toDigits (by decide) (by decide) h

/-- Digits are not blank. -/
theorem not_isBlank_of_isDigit {c : Char} (h : c.isDigit = true) : Text.isBlank c = false := by
  have hrange : 48 ≤ c.toNat ∧ c.toNat ≤ 57 := by
    simpa [Char.isDigit, UInt32.le_iff_toNat_le] using h
  simp [Text.isBlank]
  omega

/-- A written number asks for itself, as long as it fits in a count. -/
theorem requested?_toDigits (cores : Nat) {n : Nat} (h : n ≤ Datum.maxCount) :
    requested? cores (String.ofList (Nat.toDigits 10 n)) = some n := by
  have hlast : ∀ c, (Nat.toDigits 10 n).getLast? = some c → c.isDigit = true := fun c hc =>
    isDigit_of_mem_toDigits (List.mem_of_getLast? hc)
  have hcount : count? (String.ofList (Nat.toDigits 10 n)) = some n := by
    simp only [count?, String.toList_ofList]
    split
    case h_1 digits hdigits =>
      have hplus := isDigit_of_mem_toDigits (hdigits ▸ List.mem_cons_self)
      cases hplus
    case h_2 => simp [Decimal.nat?_toDigits, h]
  simp only [requested?, String.toList_ofList]
  split
  case h_1 hC => cases hlast _ hC
  case h_2 hc => cases hlast _ hc
  case h_3 => exact hcount

/-- Every count but zero can be asked for. -/
theorem threads_toString (cores : Nat) {n : Nat} (hpos : 1 ≤ n) (hmax : n ≤ Datum.maxCount) :
    threads cores (toString n) = .ok n := by
  have htrim : Text.trim (toString n) = String.ofList (Nat.toDigits 10 n) := by
    rw [Text.trim, Nat.toString_eq_ofList_toDigits, String.toList_ofList,
      Text.trimChars_of_forall fun c hc => not_isBlank_of_isDigit (isDigit_of_mem_toDigits hc)]
  rw [threads_eq_ok_iff, htrim]
  exact ⟨requested?_toDigits cores hmax, hpos⟩

/-- The numbers of threads that texts can ask for. -/
theorem exists_threads_iff (cores n : Nat) :
    (∃ text, threads cores text = .ok n) ↔ 1 ≤ n ∧ n ≤ Datum.maxCount :=
  ⟨fun ⟨_, h⟩ => threads_bounds h, fun ⟨hpos, hmax⟩ => ⟨_, threads_toString cores hpos hmax⟩⟩

end Settings

/-! ### Files -/

/-- A datum is read as a count only if it fits in one. -/
theorem Datum.count?_le {d : Datum} {n : Nat} (h : d.count? = some n) : n ≤ maxCount := by
  obtain ⟨i, hi, rfl⟩ := Option.map_eq_some_iff.1 h
  cases d with
  | int value =>
    simp only [intWithin?, Option.ite_none_right_eq_some, Bool.and_eq_true, decide_eq_true_eq,
      Option.some.injEq] at hi
    omega
  | _ => cases hi

/-- What a field is read as is its default, or read from a datum. -/
theorem Fields.withDefault_eq_some {α : Type} {fields : Fields} {name : String} {default a : α}
    {read : Datum → Option α} (h : fields.withDefault name default read = some a) :
    a = default ∨ ∃ d, read d = some a := by
  unfold withDefault at h
  split at h
  · exact .inl (Option.some.inj h).symm
  next d _ => exact .inr ⟨d, h⟩

/-- A section of a file has no more threads than fit in a count. -/
theorem BuildSection.degree_le_of_ofDatum? {format : DataFormat} {d : Datum} {b : BuildSection}
    (h : ofDatum? format d = some b) : b.degreeOfConcurrency ≤ Datum.maxCount := by
  simp only [ofDatum?, Option.bind_eq_bind, Option.bind_eq_some_iff] at h
  obtain ⟨fields, -, degree, hdegree, policy, -, offline, -, present, -, heq⟩ := h
  obtain rfl := Option.some.inj heq
  rcases Fields.withDefault_eq_some hdegree with rfl | ⟨value, hvalue⟩
  · exact Nat.le_of_ble_eq_true rfl
  · exact Datum.count?_le hvalue

namespace Settings

/-- So it is with the settings in a file. -/
theorem degree_le_of_ofDatum? {format : DataFormat} {d : Datum} {s : Settings}
    (h : ofDatum? format d = some s) : s.build.degreeOfConcurrency ≤ Datum.maxCount := by
  simp only [ofDatum?, Option.bind_eq_bind, Option.bind_eq_some_iff] at h
  obtain ⟨fields, -, build, hbuild, logging, -, heq⟩ := h
  obtain rfl := Option.some.inj heq
  rcases Fields.withDefault_eq_some hbuild with rfl | ⟨value, hvalue⟩
  · exact Nat.le_of_ble_eq_true rfl
  · exact BuildSection.degree_le_of_ofDatum? hvalue

/-! ### The environment -/

/-- The variable for the policy has no part in the number of threads. -/
theorem degree_of_withPolicyVariable {s s' : Settings} {lookup : String → Option String}
    (h : s.withPolicyVariable lookup = .ok s') :
    s'.build.degreeOfConcurrency = s.build.degreeOfConcurrency := by
  unfold withPolicyVariable at h
  split at h
  · rw [Except.ok.inj h]
  · split at h
    · obtain rfl := Except.ok.inj h
      rfl
    · cases h

/-- Nor has the one for working offline. -/
theorem degree_withOfflineVariable (s : Settings) (lookup : String → Option String) :
    (s.withOfflineVariable lookup).build.degreeOfConcurrency = s.build.degreeOfConcurrency := by
  unfold withOfflineVariable
  split <;> rfl

/-- The variable for threads gives their number if it is set, and else leaves it alone. -/
theorem degree_of_withThreadsVariable {s s' : Settings} {cores : Nat}
    {lookup : String → Option String} (h : s.withThreadsVariable cores lookup = .ok s') :
    (lookup threadsVariable = none ∧ s' = s) ∨ ∃ text, lookup threadsVariable = some text ∧
      threads cores text = .ok s'.build.degreeOfConcurrency := by
  unfold withThreadsVariable at h
  split at h
  next hnone => exact .inl ⟨hnone, (Except.ok.inj h).symm⟩
  next text htext =>
    split at h
    next n hn =>
      obtain rfl := Except.ok.inj h
      exact .inr ⟨text, htext, hn⟩
    next => cases h

/-- The environment gives the number of threads by that variable only. -/
theorem degree_of_withEnvironment {s s' : Settings} {cores : Nat}
    {lookup : String → Option String} (h : s.withEnvironment cores lookup = (none, s')) :
    (lookup threadsVariable = none ∧
        s'.build.degreeOfConcurrency = s.build.degreeOfConcurrency) ∨
      ∃ text, lookup threadsVariable = some text ∧
        threads cores text = .ok s'.build.degreeOfConcurrency := by
  unfold withEnvironment at h
  split at h
  next => cases h
  next first hfirst =>
    split at h
    next => cases h
    next second hsecond =>
      obtain rfl := (Prod.mk.inj h).2
      rw [degree_withOfflineVariable, degree_of_withPolicyVariable hsecond]
      rcases degree_of_withThreadsVariable hfirst with ⟨hnone, rfl⟩ | hsome
      · exact .inl ⟨hnone, rfl⟩
      · exact .inr hsome

end Settings

end PhasedBuild
