import Mathlib.Algebra.Order.BigOperators.Group.List
import Mathlib.Tactic.Common

/-!
# Reading back successful computations

Rust's early returns become `Except`. A successful run of a `do` block is taken
apart with the equivalences below: each bind yields the intermediate value it
produced, and each guard yields the condition it checked.
-/

namespace Except

universe u v

variable {ε : Type u} {α β : Type v}

/-- A bind succeeds exactly when both halves do, on the value handed over. -/
theorem bind_succeeds {x : Except ε α} {f : α → Except ε β} {b : β} :
    (x >>= f) = .ok b ↔ ∃ a, x = .ok a ∧ f a = .ok b := by
  rcases x with e | a
  · exact ⟨fun h => (nomatch h), fun ⟨_, h, _⟩ => (nomatch h)⟩
  · exact ⟨fun h => ⟨a, rfl, h⟩, fun ⟨_, rfl, h⟩ => h⟩

/-- A bind fails where the first half does, or the second on what the first produced. -/
theorem bind_fails {x : Except ε α} {f : α → Except ε β} {e : ε} :
    (x >>= f) = .error e ↔ x = .error e ∨ ∃ a, x = .ok a ∧ f a = .error e := by
  rcases x with e' | a
  · exact ⟨fun h => .inl (Except.error.inj h ▸ rfl), fun h => h.elim (fun h => by cases h; rfl)
      fun ⟨_, h, _⟩ => nomatch h⟩
  · exact ⟨fun h => .inr ⟨a, rfl, h⟩, fun h => h.elim (fun h => nomatch h)
      fun ⟨_, h, hf⟩ => by cases h; exact hf⟩

theorem map_eq_ok {γ : Type v} {x : Except ε α} {f : α → γ} {c : γ} :
    x.map f = .ok c ↔ ∃ a, x = .ok a ∧ f a = c := by
  cases x <;> simp [Except.map]

theorem mapError_eq_ok {ε' : Type*} {x : Except ε α} {f : ε → ε'} {a : α} :
    x.mapError f = .ok a ↔ x = .ok a := by
  cases x <;> simp [Except.mapError]

theorem pure_succeeds {a b : α} : (pure a : Except ε α) = .ok b ↔ a = b :=
  ⟨Except.ok.inj, congrArg Except.ok⟩

theorem pure_ne_error {a : α} {e : ε} : (pure a : Except ε α) ≠ .error e := nofun

@[simp] theorem pure_eq_error {a : α} {e : ε} : (pure a : Except ε α) = .error e ↔ False :=
  iff_false_intro pure_ne_error

@[simp] theorem bind_of_ok (a : α) (f : α → Except ε β) : (Except.ok a >>= f) = f a := rfl

@[simp] theorem bind_of_error (e : ε) (f : α → Except ε β) :
    (Except.error e >>= f) = .error e := rfl

/-- A map over a bind acts on the second half. -/
theorem map_bind {γ : Type v} {x : Except ε α} {f : α → Except ε β} {g : β → γ} :
    (x >>= f).map g = x >>= fun a => (f a).map g := by
  cases x <;> rfl

/-- Two continuations that agree up to `g` agree so after the same first half. -/
theorem bind_eq_map_bind {γ : Type v} {x : Except ε α} {f : α → Except ε β} {f' : α → Except ε γ}
    {g : β → γ} (h : ∀ a, f' a = (f a).map g) : (x >>= f') = (x >>= f).map g := by
  cases x with
  | error e => rfl
  | ok a => exact h a

/-- The same where the first half already differs by a map. -/
theorem map_bind_eq_map_bind {γ δ : Type v} {x : Except ε α} {f : α → Except ε β} {g : α → γ}
    {f' : γ → Except ε δ} {g' : β → δ} (h : ∀ a, f' (g a) = (f a).map g') :
    (x.map g >>= f') = (x >>= f).map g' := by
  cases x with
  | error e => rfl
  | ok a => exact h a

/-- The same where the two first halves are known to differ by a map. -/
theorem bind_eq_map_bind_of_eq {γ δ : Type v} {x : Except ε α} {x' : Except ε γ}
    {f : α → Except ε β} {f' : γ → Except ε δ} {g : α → γ} {g' : β → δ} (hx : x' = x.map g)
    (h : ∀ a, f' (g a) = (f a).map g') : (x' >>= f') = (x >>= f).map g' := by
  rw [hx]
  exact map_bind_eq_map_bind h

/-- `if c { return Err(e) }`. -/
def refuseIf (c : Prop) [Decidable c] (e : ε) : Except ε Unit :=
  if c then .error e else .ok ()

@[simp] theorem refuseIf_eq_ok {c : Prop} [Decidable c] {e : ε} {u : Unit} :
    refuseIf c e = .ok u ↔ ¬ c := by
  unfold refuseIf
  split <;> simp_all

@[simp] theorem refuseIf_eq_error {c : Prop} [Decidable c] {e e' : ε} :
    refuseIf c e = .error e' ↔ c ∧ e = e' := by
  unfold refuseIf
  split <;> simp_all

theorem refuseIf_of_not {c : Prop} [Decidable c] {e : ε} (h : ¬ c) : refuseIf c e = .ok () :=
  if_neg h

/-- `o.ok_or(e)?`. -/
def okOr (o : Option α) (e : ε) : Except ε α :=
  o.elim (.error e) .ok

@[simp] theorem okOr_eq_ok {o : Option α} {e : ε} {a : α} : okOr o e = .ok a ↔ o = some a := by
  cases o <;> simp [okOr]

@[simp] theorem okOr_eq_error {o : Option α} {e e' : ε} :
    okOr o e = .error e' ↔ o = none ∧ e = e' := by
  cases o <;> simp [okOr]

@[simp] theorem okOr_some (a : α) (e : ε) : okOr (some a) e = .ok a := rfl

@[simp] theorem okOr_none (e : ε) : (okOr none e : Except ε α) = .error e := rfl

/-! ## Loops -/

/-- A loop whose rounds all succeed succeeds. -/
theorem foldlM_succeeds {ι : Type*} {f : α → ι → Except ε α} {items : List ι}
    (h : ∀ acc, ∀ i ∈ items, ∃ next, f acc i = .ok next) (start : α) :
    ∃ result, items.foldlM f start = .ok result := by
  induction items generalizing start with
  | nil => exact ⟨start, rfl⟩
  | cons head tail ih =>
      obtain ⟨next, hnext⟩ := h start head List.mem_cons_self
      rw [List.foldlM_cons, hnext, bind_of_ok]
      exact ih (fun acc i hi => h acc i (List.mem_cons_of_mem head hi)) next

/-- Every round of a loop that succeeds has succeeded. -/
theorem foldlM_rounds {ι : Type*} {f : α → ι → Except ε α} {items : List ι} {start result : α}
    (h : items.foldlM f start = .ok result) : ∀ i ∈ items, ∃ acc next, f acc i = .ok next := by
  induction items generalizing start with
  | nil => simp
  | cons head tail ih =>
      rw [List.foldlM_cons, bind_succeeds] at h
      obtain ⟨next, hnext, hrest⟩ := h
      intro i hi
      rcases List.mem_cons.mp hi with rfl | hi
      · exact ⟨start, next, hnext⟩
      · exact ih hrest i hi

/-- Where every round succeeds with what `g` computes, as long as `inv` holds, the loop
computes what the pure one does. -/
theorem foldlM_eq_foldl {ι : Type*} {f : α → ι → Except ε α} {g : α → ι → α} (inv : α → Prop)
    {items : List ι}
    (hround : ∀ acc, ∀ i ∈ items, inv acc → f acc i = .ok (g acc i) ∧ inv (g acc i))
    {start : α} (hstart : inv start) :
    items.foldlM f start = .ok (items.foldl g start) ∧ inv (items.foldl g start) := by
  induction items generalizing start with
  | nil => exact ⟨rfl, hstart⟩
  | cons head tail ih =>
      obtain ⟨hhead, hnext⟩ := hround start head List.mem_cons_self hstart
      rw [List.foldlM_cons, hhead, bind_of_ok, List.foldl_cons]
      exact ih (fun acc i hi => hround acc i (List.mem_cons_of_mem head hi)) hnext

/-- If every round succeeds, a loop that collects the results collects one for each item. -/
theorem mapM_succeeds {ι : Type*} {f : ι → Except ε α} {items : List ι}
    (h : ∀ i ∈ items, ∃ a, f i = .ok a) :
    ∃ results, items.mapM f = .ok results ∧
      List.Forall₂ (fun i a => f i = .ok a) items results := by
  induction items with
  | nil => exact ⟨[], rfl, .nil⟩
  | cons head tail ih =>
      obtain ⟨a, ha⟩ := h head List.mem_cons_self
      obtain ⟨results, hresults, hitems⟩ := ih fun i hi => h i (List.mem_cons_of_mem head hi)
      refine ⟨a :: results, ?_, .cons ha hitems⟩
      rw [List.mapM_cons, ha, hresults]
      rfl

/-- A loop that fails fails in one of its rounds. -/
theorem foldlM_fails {ι : Type*} {f : α → ι → Except ε α} {items : List ι} {start : α} {e : ε}
    (h : items.foldlM f start = .error e) : ∃ acc, ∃ i ∈ items, f acc i = .error e := by
  induction items generalizing start with
  | nil => exact absurd h pure_ne_error
  | cons head tail ih =>
      rw [List.foldlM_cons, bind_fails] at h
      rcases h with h | ⟨next, -, h⟩
      · exact ⟨start, head, List.mem_cons_self, h⟩
      · obtain ⟨acc, i, hi, hround⟩ := ih h
        exact ⟨acc, i, List.mem_cons_of_mem head hi, hround⟩

/-- A loop that counts the items with a property, with a limit on the count. -/
theorem foldlM_count {ι : Type*} {p : ι → Prop} [DecidablePred p] {limit : Nat} {e : ε}
    {f : Nat → ι → Except ε Nat}
    (hcount : ∀ n i, p i → f n i = if n + 1 ≤ limit then .ok (n + 1) else .error e)
    (hskip : ∀ n i, ¬ p i → f n i = .ok n) {items : List ι} {start : Nat}
    (hstart : start ≤ limit) :
    items.foldlM f start =
      if start + items.countP (p ·) ≤ limit then .ok (start + items.countP (p ·))
      else .error e := by
  induction items generalizing start with
  | nil => simp [hstart, pure, Except.pure]
  | cons head tail ih =>
      rw [List.foldlM_cons, List.countP_cons]
      by_cases hhead : p head
      · rw [hcount _ _ hhead]
        by_cases hnext : start + 1 ≤ limit
        · rw [if_pos hnext, bind_of_ok, ih hnext]
          simp only [hhead, decide_true, if_true, Nat.add_assoc, Nat.add_comm 1]
        · rw [if_neg hnext, bind_of_error, if_neg]
          simp only [hhead, decide_true, if_true]
          omega
      · rw [hskip _ _ hhead, bind_of_ok, ih hstart]
        simp [hhead]

section Sums

variable {M : Type v} {ι : Type*} {f : M → ι → Except ε M} {g : ι → M}

/-- If every round that succeeds adds `g`, a loop that succeeds adds the sum. -/
theorem foldlM_adds [AddMonoid M] (hround : ∀ acc i next, f acc i = .ok next → next = acc + g i)
    {items : List ι} {start total : M} (h : items.foldlM f start = .ok total) :
    total = start + (items.map g).sum := by
  induction items generalizing start with
  | nil =>
      obtain rfl := pure_succeeds.mp h
      simp
  | cons head tail ih =>
      rw [List.foldlM_cons, bind_succeeds] at h
      obtain ⟨next, hnext, hrest⟩ := h
      rw [ih hrest, hround _ _ _ hnext, List.map_cons, List.sum_cons, add_assoc]

/-- If every round succeeds below a bound, a loop over non-negative amounts
succeeds when the whole sum is below it. -/
theorem foldlM_eq_sum [AddCommMonoid M] [PartialOrder M] [IsOrderedAddMonoid M] {bound : M}
    {items : List ι} (hg : ∀ i ∈ items, 0 ≤ g i)
    (hround : ∀ acc, ∀ i ∈ items, 0 ≤ acc → acc + g i ≤ bound → f acc i = .ok (acc + g i))
    {start : M} (hstart : 0 ≤ start) (hbound : start + (items.map g).sum ≤ bound) :
    items.foldlM f start = .ok (start + (items.map g).sum) := by
  induction items generalizing start with
  | nil => simp [pure, Except.pure]
  | cons head tail ih =>
      rw [List.map_cons, List.sum_cons, ← add_assoc] at hbound ⊢
      have htail : 0 ≤ (tail.map g).sum := by
        apply List.sum_nonneg
        intro x hx
        obtain ⟨i, hi, rfl⟩ := List.mem_map.mp hx
        exact hg i (List.mem_cons_of_mem head hi)
      have hhead : start + g head ≤ bound := (le_add_of_nonneg_right htail).trans hbound
      rw [List.foldlM_cons, hround start head List.mem_cons_self hstart hhead, bind_of_ok]
      exact ih (fun i hi => hg i (List.mem_cons_of_mem head hi))
        (fun acc i hi => hround acc i (List.mem_cons_of_mem head hi))
        (add_nonneg hstart (hg head List.mem_cons_self)) hbound

end Sums

end Except
