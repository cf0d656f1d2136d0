import Mathlib.Algebra.Order.Field.Rat
import Mathlib.Tactic.Linarith

/-!
# Lazy accrual in whole units

A quantity grows by exact amounts, counted in `K`-ths of a unit, and is charged in
whole units only when somebody settles: the charge then takes what is pending,
rounded down. Each settlement loses less than one unit, and waiting loses nothing.
-/

/-- `exact` has grown in `K`-ths of a unit, `pending` of it since the last
settlement; `charged` units were billed in at most `settlements` settlements. -/
structure Metered (K exact pending charged : Int) (settlements : Nat) : Prop where
  pending_nonneg : 0 ≤ pending
  lower : K * charged ≤ exact - pending
  upper : exact - pending ≤ K * charged + settlements * (K - 1)

namespace Metered

variable {K exact pending charged : Int} {settlements : Nat}

theorem start : Metered K 0 0 0 0 := ⟨le_rfl, by simp, by simp⟩

/-- What accrues while nobody settles is pending. -/
theorem wait {x : Int} (h : Metered K exact pending charged settlements) (hx : 0 ≤ x) :
    Metered K (exact + x) (pending + x) charged settlements := by
  have hlower := h.lower
  have hupper := h.upper
  exact ⟨add_nonneg h.pending_nonneg hx, by linarith, by linarith⟩

theorem settle (h : Metered K exact pending charged settlements) (hK : 0 < K) :
    Metered K exact 0 (charged + pending.tdiv K) (settlements + 1) := by
  have hdivision := Int.mul_ediv_add_emod pending K
  have hremainder := Int.emod_nonneg pending hK.ne'
  have hsmall := Int.emod_lt_of_pos pending hK
  have hlower := h.lower
  have hupper := h.upper
  rw [Int.tdiv_eq_ediv_of_nonneg h.pending_nonneg]
  refine ⟨le_rfl, ?_, ?_⟩
  · rw [mul_add]
    linarith
  · push_cast
    rw [mul_add, add_mul]
    linarith

theorem mono {more : Nat} (h : Metered K exact pending charged settlements) (hK : 0 < K)
    (hle : settlements ≤ more) : Metered K exact pending charged more := by
  have hslack : (settlements : Int) * (K - 1) ≤ more * (K - 1) :=
    mul_le_mul_of_nonneg_right (by exact_mod_cast hle) (by linarith)
  exact ⟨h.pending_nonneg, h.lower, h.upper.trans (by linarith)⟩

/-- Once settled, the charge is less than one unit off for every settlement. -/
theorem abs_sub_lt (h : Metered K exact 0 charged settlements) (hK : 0 < K)
    (hpos : 0 < settlements) : |(charged : ℚ) - exact / K| < settlements := by
  have hKq : (0 : ℚ) < K := by exact_mod_cast hK
  have hcount : (0 : ℚ) < settlements := by exact_mod_cast hpos
  have hlower : (K : ℚ) * charged ≤ exact := by exact_mod_cast sub_zero exact ▸ h.lower
  have hupper : (exact : ℚ) ≤ K * charged + settlements * (K - 1) := by
    exact_mod_cast sub_zero exact ▸ h.upper
  rw [abs_sub_lt_iff]
  constructor
  · have hbelow : (charged : ℚ) ≤ exact / K := by
      rw [le_div_iff₀ hKq]
      linarith
    linarith
  · have habove : (exact : ℚ) / K < charged + settlements := by
      rw [div_lt_iff₀ hKq]
      nlinarith
    linarith

end Metered

/-- What is charged in parts is compared with one exact amount `X`. The parts have
earned `above` more than `X` and were rounded down by `cut` in all; they reach `X`
rounded down once exactly when `cut` is made up for by `above` and by what the one
rounding cuts off itself. -/
theorem floor_le_charged_iff {K X charged cut above : Int} (hK : 0 < K)
    (h : K * charged + cut = above + X) : X / K ≤ charged ↔ cut ≤ above + X % K := by
  have hdivision := Int.mul_ediv_add_emod X K
  constructor
  · intro hle
    have hscaled : K * (X / K) ≤ K * charged := mul_le_mul_of_nonneg_left hle hK.le
    linarith
  · intro hle
    have hscaled : K * (X / K) ≤ K * charged := by linarith
    exact le_of_mul_le_mul_left hscaled hK
