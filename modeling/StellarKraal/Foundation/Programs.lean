import Mathlib.Tactic.Common

/-!
# Programs that write as they go

A program over a store reads and writes step by step, and one that fails has
kept what it wrote until then. A run of a `do` block is taken apart with the
equivalences below, as for `Except`; that failures of some kind come before all
writes is shown along the block, bind by bind.
-/

namespace EStateM

universe u

variable {ε σ α β : Type u}

/-- A bind succeeds exactly when both halves do, on the value and the store handed over. -/
theorem bind_eq_ok {x : EStateM ε σ α} {f : α → EStateM ε σ β} {s s' : σ} {b : β} :
    (x >>= f) s = .ok b s' ↔ ∃ a middle, x s = .ok a middle ∧ f a middle = .ok b s' := by
  change EStateM.bind x f s = _ ↔ _
  unfold EStateM.bind
  cases x s <;> simp

/-- A bind fails where the first half does, or the second on what the first left. -/
theorem bind_eq_error {x : EStateM ε σ α} {f : α → EStateM ε σ β} {s s' : σ} {e : ε} :
    (x >>= f) s = .error e s' ↔
      x s = .error e s' ∨ ∃ a middle, x s = .ok a middle ∧ f a middle = .error e s' := by
  change EStateM.bind x f s = _ ↔ _
  unfold EStateM.bind
  cases x s <;> simp

@[simp] theorem pure_eq_ok {a b : α} {s s' : σ} :
    (pure a : EStateM ε σ α) s = .ok b s' ↔ a = b ∧ s = s' := by
  change Result.ok a s = _ ↔ _
  simp

@[simp] theorem pure_eq_error {a : α} {e : ε} {s s' : σ} :
    (pure a : EStateM ε σ α) s = .error e s' ↔ False := by
  change Result.ok a s = _ ↔ _
  simp

@[simp] theorem throw_eq_ok {e : ε} {a : α} {s s' : σ} :
    (throw e : EStateM ε σ α) s = .ok a s' ↔ False := by
  change Result.error e s = _ ↔ _
  simp

@[simp] theorem throw_eq_error {e e' : ε} {s s' : σ} :
    (throw e : EStateM ε σ α) s = .error e' s' ↔ e = e' ∧ s = s' := by
  change Result.error e s = _ ↔ _
  simp

@[simp] theorem get_eq_ok {s s' a : σ} :
    (get : EStateM ε σ σ) s = .ok a s' ↔ s = a ∧ s = s' := by
  change Result.ok s s = _ ↔ _
  simp

@[simp] theorem get_eq_error {s s' : σ} {e : ε} :
    (get : EStateM ε σ σ) s = .error e s' ↔ False := by
  change Result.ok s s = _ ↔ _
  simp

@[simp] theorem modify_eq_ok {f : σ → σ} {s s' : σ} {u : PUnit} :
    (modify f : EStateM ε σ PUnit) s = .ok u s' ↔ f s = s' := by
  change Result.ok PUnit.unit (f s) = _ ↔ _
  simp

@[simp] theorem modify_eq_error {f : σ → σ} {s s' : σ} {e : ε} :
    (modify f : EStateM ε σ PUnit) s = .error e s' ↔ False := by
  change Result.ok PUnit.unit (f s) = _ ↔ _
  simp

/-! ## Failing before writing -/

variable (P : ε → Prop)

/-- A failure of the kind `P` leaves the store as it was. -/
def FailsFirst (x : EStateM ε σ α) : Prop :=
  ∀ s e s', x s = .error e s' → P e → s' = s

/-- The program has no failure of the kind `P`. -/
def NeverFails (x : EStateM ε σ α) : Prop :=
  ∀ s e s', x s = .error e s' → ¬ P e

/-- A successful run leaves the store as it was. -/
def ReadsOnly (x : EStateM ε σ α) : Prop :=
  ∀ s a s', x s = .ok a s' → s' = s

variable {P}

theorem NeverFails.failsFirst {x : EStateM ε σ α} (h : NeverFails P x) : FailsFirst P x :=
  fun s e s' hrun hP => absurd hP (h s e s' hrun)

/-- What only reads may stand before a program that fails first. -/
theorem FailsFirst.bind {x : EStateM ε σ α} {f : α → EStateM ε σ β} (hx : FailsFirst P x)
    (hreads : ReadsOnly x) (hf : ∀ a, FailsFirst P (f a)) : FailsFirst P (x >>= f) := by
  intro s e s' hrun hP
  rcases bind_eq_error.mp hrun with hfirst | ⟨a, middle, hfirst, hsecond⟩
  · exact hx s e s' hfirst hP
  · obtain rfl := hreads s a middle hfirst
    exact hf a middle e s' hsecond hP

theorem NeverFails.bind {x : EStateM ε σ α} {f : α → EStateM ε σ β} (hx : NeverFails P x)
    (hf : ∀ a, NeverFails P (f a)) : NeverFails P (x >>= f) := by
  intro s e s' hrun
  rcases bind_eq_error.mp hrun with hfirst | ⟨a, middle, -, hsecond⟩
  · exact hx s e s' hfirst
  · exact hf a middle e s' hsecond

theorem ReadsOnly.bind {x : EStateM ε σ α} {f : α → EStateM ε σ β} (hx : ReadsOnly x)
    (hf : ∀ a, ReadsOnly (f a)) : ReadsOnly (x >>= f) := by
  intro s b s' hrun
  obtain ⟨a, middle, hfirst, hsecond⟩ := bind_eq_ok.mp hrun
  obtain rfl := hx s a middle hfirst
  exact hf a middle b s' hsecond

end EStateM
