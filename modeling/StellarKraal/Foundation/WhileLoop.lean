import Mathlib.Order.Lattice

/-!
# While loops

A loop that need not end, run for so many rounds at most. Where it ends, more rounds
make no difference.
-/

namespace WhileLoop

variable {State : Type*} {cond : State → Bool} {body : State → State} {s s' : State}
  {fuel fuel' : Nat}

/-- The state in which the loop ends, if it does so within `fuel` rounds. -/
def run (cond : State → Bool) (body : State → State) : Nat → State → Option State
  | 0, s => if cond s then none else some s
  | fuel + 1, s => if cond s then run cond body fuel (body s) else some s

theorem run_exit (h : cond s = false) (fuel : Nat) : run cond body fuel s = some s := by
  cases fuel <;> simp [run, h]

theorem run_round (h : cond s = true) (fuel : Nat) :
    run cond body (fuel + 1) s = run cond body fuel (body s) := by
  simp [run, h]

theorem run_mono (h : run cond body fuel s = some s') (hle : fuel ≤ fuel') :
    run cond body fuel' s = some s' := by
  induction fuel generalizing s fuel' with
  | zero =>
      cases hcond : cond s with
      | true => simp [run, hcond] at h
      | false =>
          rw [run_exit hcond] at h
          rw [run_exit hcond, h]
  | succ fuel ih =>
      cases hcond : cond s with
      | true =>
          obtain ⟨more, rfl⟩ := Nat.exists_eq_add_of_le hle
          rw [run_round hcond] at h
          rw [Nat.succ_add, run_round hcond]
          exact ih h (Nat.le_add_right _ _)
      | false =>
          rw [run_exit hcond] at h
          rw [run_exit hcond, h]

/-- A loop whose states are known round by round. -/
theorem run_of_rounds (states : Nat → State) {n : Nat}
    (hround : ∀ j < n, cond (states j) = true ∧ body (states j) = states (j + 1))
    (hexit : cond (states n) = false) (hfuel : n ≤ fuel) :
    run cond body fuel (states 0) = some (states n) := by
  induction n generalizing states fuel with
  | zero => exact run_exit hexit fuel
  | succ n ih =>
      obtain ⟨fuel, rfl⟩ := Nat.exists_eq_add_of_le' (Nat.one_le_of_lt (Nat.lt_of_succ_le hfuel))
      obtain ⟨hcond, hbody⟩ := hround 0 (Nat.succ_pos n)
      rw [run_round hcond, hbody]
      exact ih (fun j => states (j + 1)) (fun j hj => hround (j + 1) (Nat.succ_lt_succ hj)) hexit
        (Nat.le_of_succ_le_succ hfuel)

/-- Every round lowers a number of the state, and the loop ends before it is used up. -/
theorem exists_run_of_variant (variant : State → Nat)
    (hround : ∀ s, cond s = true → variant (body s) < variant s) (hfuel : variant s ≤ fuel) :
    ∃ s', run cond body fuel s = some s' := by
  induction fuel generalizing s with
  | zero =>
      cases hcond : cond s with
      | true => exact absurd (hround s hcond) (by omega)
      | false => exact ⟨s, run_exit hcond 0⟩
  | succ fuel ih =>
      cases hcond : cond s with
      | true =>
          have hless := hround s hcond
          rw [run_round hcond]
          exact ih (by omega)
      | false => exact ⟨s, run_exit hcond _⟩

/-- A loop that keeps to states in which it goes on does not end. -/
theorem run_eq_none (goesOn : State → Prop)
    (hround : ∀ s, goesOn s → cond s = true ∧ goesOn (body s)) (hs : goesOn s) (fuel : Nat) :
    run cond body fuel s = none := by
  induction fuel generalizing s with
  | zero => simp [run, (hround s hs).1]
  | succ fuel ih =>
      rw [run_round (hround s hs).1]
      exact ih (hround s hs).2

/-! ## Programs with loops -/

/-- With enough rounds for its loops the program ends with `result`. -/
def Yields {α : Type*} (program : Nat → Option α) (result : α) : Prop :=
  ∃ enough, ∀ fuel, enough ≤ fuel → program fuel = some result

namespace Yields

variable {α β : Type*} {program : Nat → Option α} {a b : α}

theorem of_run {enough : Nat} (h : run cond body enough s = some s') :
    Yields (fun fuel => run cond body fuel s) s' :=
  ⟨enough, fun _ hle => run_mono h hle⟩

theorem of_eq (h : ∀ fuel, program fuel = some a) : Yields program a :=
  ⟨0, fun fuel _ => h fuel⟩

theorem map (h : Yields program a) (f : α → β) :
    Yields (fun fuel => (program fuel).map f) (f a) := by
  obtain ⟨enough, h⟩ := h
  exact ⟨enough, fun fuel hle => congrArg (Option.map f) (h fuel hle)⟩

theorem bind {rest : Nat → α → Option β} {b : β} (h : Yields program a)
    (hrest : Yields (fun fuel => rest fuel a) b) :
    Yields (fun fuel => (program fuel).bind (rest fuel)) b := by
  obtain ⟨enough, h⟩ := h
  obtain ⟨enough', hrest⟩ := hrest
  refine ⟨max enough enough', fun fuel hle => ?_⟩
  have hfirst := h fuel ((le_max_left _ _).trans hle)
  exact (congrArg (Option.bind · (rest fuel)) hfirst).trans
    (hrest fuel ((le_max_right _ _).trans hle))

theorem unique (h : Yields program a) (h' : Yields program b) : a = b := by
  obtain ⟨enough, h⟩ := h
  obtain ⟨enough', h'⟩ := h'
  have hsame := (h _ (le_max_left enough enough')).symm.trans (h' _ (le_max_right _ _))
  exact Option.some.inj hsame

theorem not_of_none (h : ∀ fuel, program fuel = none) : ¬ Yields program a := by
  rintro ⟨enough, hresult⟩
  exact nomatch (h enough).symm.trans (hresult enough le_rfl)

end Yields

end WhileLoop
