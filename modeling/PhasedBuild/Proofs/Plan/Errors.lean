import PhasedBuild.Proofs.Plan.Planning

/-!
# What computations fail with

* `FailsWith` and `Planning.FailsWith`: the errors of a computation, without and with a log, are of
  some sort. There is one rule for each way of putting computations together.
-/

namespace PhasedBuild

/-! ### Results -/

section results

variable {α β : Type} {sort : BuildError → Prop}

/-- A result is an error of some sort only. -/
def FailsWith (sort : BuildError → Prop) (x : Except BuildError α) : Prop :=
  ∀ e, x = .error e → sort e

namespace FailsWith

/-- A result is no error. -/
theorem ok (a : α) : FailsWith sort (.ok a) :=
  fun _ h => nomatch h

/-- An error is of its own sort. -/
theorem error {e : BuildError} (h : sort e) : FailsWith sort (.error e : Except BuildError α) := by
  intro e' heq
  obtain rfl := Except.error.inj heq
  exact h

/-- What fails in two parts fails with the errors of either. -/
theorem bind {x : Except BuildError α} {f : α → Except BuildError β} (hx : FailsWith sort x)
    (hf : ∀ a, FailsWith sort (f a)) : FailsWith sort (x >>= f) := by
  cases x with
  | error e => exact .error (hx e rfl)
  | ok a => exact hf a

/-- Changing a result changes no error. -/
theorem map {x : Except BuildError α} {f : α → β} (hx : FailsWith sort x) :
    FailsWith sort (x.map f) := by
  cases x with
  | error e => exact .error (hx e rfl)
  | ok a => exact .ok (f a)

/-- What is done for each element of a list fails with the errors of each. -/
theorem mapM {f : α → Except BuildError β} {l : List α} (h : ∀ a ∈ l, FailsWith sort (f a)) :
    FailsWith sort (l.mapM f) := by
  induction l with
  | nil => exact .ok []
  | cons a rest ih =>
    rw [List.mapM_cons]
    obtain ⟨ha, hrest⟩ := List.forall_mem_cons.1 h
    exact ha.bind fun b => (ih hrest).bind fun bs => .ok (b :: bs)

end FailsWith

end results

/-! ### Computations of the planner -/

namespace Planning

variable {α β : Type} {sort : BuildError → Prop} {x : Planning α} {f : α → Planning β}

/-- A computation fails with errors of some sort only, whatever the log that it starts with. -/
def FailsWith (sort : BuildError → Prop) (x : Planning α) : Prop :=
  ∀ log, PhasedBuild.FailsWith sort (x.runWith log).1

namespace FailsWith

/-- What needs no planning does not fail. -/
theorem pure (a : α) : FailsWith sort (Pure.pure a) :=
  fun _ => .ok a

/-- An error that is thrown is of its own sort. -/
theorem throw {e : BuildError} (h : sort e) : FailsWith sort (MonadExcept.throw e : Planning α) :=
  fun _ => .error h

/-- Warning does not fail. -/
theorem warn (messages : List String) : FailsWith sort (warn messages) :=
  fun _ => .ok ()

/-- Planning in two parts fails with the errors of either. -/
theorem bind (hx : FailsWith sort x) (hf : ∀ a, FailsWith sort (f a)) :
    FailsWith sort (x >>= f) := by
  intro log
  rw [runWith_bind]
  split
  next a log' _ => exact hf a log'
  next e log' heq => exact .error (hx log e (congrArg Prod.fst heq))

/-- What follows an error does not matter. -/
theorem throw_bind {e : BuildError} (h : sort e) :
    FailsWith sort ((MonadExcept.throw e : Planning α) >>= f) :=
  fun _ => .error h

/-- Changing errors changes their sort. -/
theorem mapError {other : BuildError → Prop} {change : BuildError → BuildError}
    (hx : FailsWith sort x) (h : ∀ e, sort e → other (change e)) :
    FailsWith other (mapError change x) := by
  intro log
  rw [runWith_mapError]
  cases heq : (x.runWith log).1 with
  | error e => exact .error (h e (hx log e heq))
  | ok a => exact .ok a

/-- Planning for each element of a list fails with the errors of each. -/
theorem mapM {l : List α} (h : ∀ a ∈ l, FailsWith sort (f a)) : FailsWith sort (l.mapM f) := by
  induction l with
  | nil => exact .pure []
  | cons a rest ih =>
    rw [List.mapM_cons]
    obtain ⟨ha, hrest⟩ := List.forall_mem_cons.1 h
    exact ha.bind fun b => (ih hrest).bind fun bs => .pure (b :: bs)

/-- Planning step by step fails with the errors of each step. -/
theorem foldlM {γ : Type} {step : β → γ → Planning β} {l : List γ}
    (h : ∀ b, ∀ c ∈ l, FailsWith sort (step b c)) (b : β) : FailsWith sort (l.foldlM step b) := by
  induction l generalizing b with
  | nil => exact .pure b
  | cons c rest ih =>
    rw [List.foldlM_cons]
    refine (h b c List.mem_cons_self).bind fun b' => ih ?_ b'
    exact fun b c hc => h b c (List.mem_cons_of_mem _ hc)

/-- A sort of errors may be replaced by a wider one. -/
theorem imp {other : BuildError → Prop} (hx : FailsWith sort x) (h : ∀ e, sort e → other e) :
    FailsWith other x :=
  fun log e he => h e (hx log e he)

end FailsWith

end Planning

end PhasedBuild
