import Mathlib.Tactic.Linarith
import Mathlib.Tactic.Ring
import Mathlib.Tactic.Positivity

/-!
# Fixed-width arithmetic over unbounded integers

Machine integers are integers together with the range their operations check.
A checked operation answers `none` where the exact result does not fit, and a
saturating one replaces it by the bound. Division of machine integers rounds
toward zero; on the non-negative values that money takes it is the floor.
-/

namespace U32

def MAX : Nat := 4294967295

/-- `u32::saturating_add`. -/
def saturatingAdd (a b : Nat) : Nat := min (a + b) MAX

theorem saturatingAdd_one_eq_self_iff {a : Nat} : saturatingAdd a 1 = a ↔ a = MAX := by
  unfold saturatingAdd
  omega

/-- `u32` addition: the exact sum, or nothing on overflow. -/
def checkedAdd (a b : Nat) : Option Nat := if a + b ≤ MAX then some (a + b) else none

@[simp] theorem checkedAdd_eq_some {a b c : Nat} :
    checkedAdd a b = some c ↔ a + b ≤ MAX ∧ a + b = c := by
  unfold checkedAdd
  split <;> simp_all

end U32

namespace U64

def MAX : Nat := 18446744073709551615

/-- `u64::checked_add`. -/
def checkedAdd (a b : Nat) : Option Nat := if a + b ≤ MAX then some (a + b) else none

/-- `u64::saturating_add`. -/
def saturatingAdd (a b : Nat) : Nat := min (a + b) MAX

@[simp] theorem checkedAdd_eq_some {a b c : Nat} :
    checkedAdd a b = some c ↔ a + b ≤ MAX ∧ a + b = c := by
  unfold checkedAdd
  split <;> simp_all

end U64

namespace I128

def MAX : Int := 170141183460469231731687303715884105727
def MIN : Int := -170141183460469231731687303715884105728

/-- The exact result, where it fits. -/
def narrow (x : Int) : Option Int := if MIN ≤ x ∧ x ≤ MAX then some x else none

def checkedAdd (a b : Int) : Option Int := narrow (a + b)
def checkedSub (a b : Int) : Option Int := narrow (a - b)
def checkedMul (a b : Int) : Option Int := narrow (a * b)

/-- Division refuses a zero divisor and the one quotient that does not fit. -/
def checkedDiv (a b : Int) : Option Int := if b = 0 then none else narrow (a.tdiv b)

/-- `i128::saturating_add`. -/
def saturatingAdd (a b : Int) : Int := max MIN (min (a + b) MAX)

/-- `a.checked_mul(b).unwrap_or(i128::MAX)`. -/
def mulOrMax (a b : Int) : Int := (checkedMul a b).getD MAX

/-- `a.checked_add(b).unwrap_or(i128::MAX)`. -/
def addOrMax (a b : Int) : Int := (checkedAdd a b).getD MAX

theorem MAX_pos : 0 < MAX := by decide

theorem narrow_eq_some {x y : Int} : narrow x = some y ↔ (MIN ≤ x ∧ x ≤ MAX) ∧ x = y := by
  unfold narrow
  split <;> simp_all

@[simp] theorem checkedAdd_eq_some {a b c : Int} :
    checkedAdd a b = some c ↔ (MIN ≤ a + b ∧ a + b ≤ MAX) ∧ a + b = c := narrow_eq_some

@[simp] theorem checkedSub_eq_some {a b c : Int} :
    checkedSub a b = some c ↔ (MIN ≤ a - b ∧ a - b ≤ MAX) ∧ a - b = c := narrow_eq_some

@[simp] theorem checkedMul_eq_some {a b c : Int} :
    checkedMul a b = some c ↔ (MIN ≤ a * b ∧ a * b ≤ MAX) ∧ a * b = c := narrow_eq_some

@[simp] theorem checkedDiv_eq_some {a b q : Int} :
    checkedDiv a b = some q ↔ b ≠ 0 ∧ (MIN ≤ a.tdiv b ∧ a.tdiv b ≤ MAX) ∧ a.tdiv b = q := by
  unfold checkedDiv
  split
  next h => simp [h]
  next h => simp [h, narrow_eq_some]

theorem narrow_eq_none {x : Int} : narrow x = none ↔ ¬ (MIN ≤ x ∧ x ≤ MAX) := by
  unfold narrow
  split <;> simp_all

theorem narrow_of_mem {x : Int} (hlo : MIN ≤ x) (hhi : x ≤ MAX) : narrow x = some x :=
  if_pos ⟨hlo, hhi⟩

/-- Non-negative results only have to be compared with the upper bound. -/
theorem narrow_of_nonneg {x : Int} (hx : 0 ≤ x) (hhi : x ≤ MAX) : narrow x = some x :=
  narrow_of_mem (le_trans (by decide) hx) hhi

/-- Non-negative results fail to fit only above. -/
theorem narrow_eq_none_iff {x : Int} (hx : 0 ≤ x) : narrow x = none ↔ MAX < x := by
  have hmin : MIN ≤ 0 := by decide
  rw [narrow_eq_none]
  omega

theorem mulOrMax_nonneg {a b : Int} (ha : 0 ≤ a) (hb : 0 ≤ b) : 0 ≤ mulOrMax a b := by
  unfold mulOrMax checkedMul narrow
  split
  · simpa using mul_nonneg ha hb
  · exact MAX_pos.le

theorem mulOrMax_pos {a b : Int} (ha : 0 < a) (hb : 0 < b) : 0 < mulOrMax a b := by
  unfold mulOrMax checkedMul narrow
  split
  · simpa using mul_pos ha hb
  · exact MAX_pos

theorem mulOrMax_eq {a b : Int} (hnonneg : 0 ≤ a * b) (h : a * b ≤ MAX) :
    mulOrMax a b = a * b := by
  simp [mulOrMax, checkedMul, narrow_of_nonneg hnonneg h]

/-- The bound only ever replaces a larger product. -/
theorem mulOrMax_le {a b : Int} (hnonneg : 0 ≤ a * b) : mulOrMax a b ≤ a * b := by
  have hmin : MIN ≤ 0 := by decide
  unfold mulOrMax checkedMul narrow
  split
  next => exact le_rfl
  next hbig =>
    rw [Option.getD_none]
    omega

/-- On non-negative operands the product saturates. -/
theorem mulOrMax_eq_min {a b : Int} (hnonneg : 0 ≤ a * b) : mulOrMax a b = min (a * b) MAX := by
  rcases le_or_gt (a * b) MAX with hfits | hbig
  · rw [mulOrMax_eq hnonneg hfits, min_eq_left hfits]
  · rw [mulOrMax, checkedMul, (narrow_eq_none_iff hnonneg).mpr hbig, Option.getD_none,
      min_eq_right hbig.le]

theorem mulOrMax_mono {a a' b b' : Int} (ha : 0 ≤ a) (hb : 0 ≤ b) (haa : a ≤ a') (hbb : b ≤ b') :
    mulOrMax a b ≤ mulOrMax a' b' := by
  have hle : a * b ≤ a' * b' := mul_le_mul haa hbb hb (ha.trans haa)
  rw [mulOrMax_eq_min (mul_nonneg ha hb),
    mulOrMax_eq_min (mul_nonneg (ha.trans haa) (hb.trans hbb))]
  exact min_le_min_right MAX hle

/-- Two saturating products in a row saturate once. -/
theorem mulOrMax_mulOrMax {a b n : Int} (ha : 0 ≤ a) (hb : 0 ≤ b) (hn : 1 ≤ n) :
    mulOrMax (mulOrMax a b) n = min (a * b * n) MAX := by
  have hproduct : 0 ≤ a * b := mul_nonneg ha hb
  have hfirst := mulOrMax_nonneg ha hb
  rw [mulOrMax_eq_min (mul_nonneg hfirst (by omega)), mulOrMax_eq_min hproduct]
  rcases le_total (a * b) MAX with hfits | hbig
  · rw [min_eq_left hfits]
  · have hmax : MAX ≤ MAX * n := le_mul_of_one_le_right MAX_pos.le hn
    rw [min_eq_right hbig, min_eq_right hmax,
      min_eq_right (hbig.trans (le_mul_of_one_le_right hproduct hn))]

theorem addOrMax_mem (a b : Int) : MIN ≤ addOrMax a b ∧ addOrMax a b ≤ MAX := by
  unfold addOrMax checkedAdd narrow
  split
  next h => exact h
  next => exact ⟨by decide, le_rfl⟩

/-- A sum that is replaced by the bound where it does not fit stays put only there. -/
theorem addOrMax_eq_self_iff {a b : Int} (hb : 0 < b) : addOrMax a b = a ↔ a = MAX := by
  unfold addOrMax checkedAdd narrow
  split <;> simp only [Option.getD_some, Option.getD_none] <;> omega

/-- Dividing by a positive number keeps a value in range. -/
theorem checkedDiv_succeeds {a b : Int} (ha : MIN ≤ a) (ha' : a ≤ MAX) (hb : 0 < b) :
    checkedDiv a b = some (a.tdiv b) := by
  have hmax : MAX = 170141183460469231731687303715884105727 := rfl
  have hmin : MIN = -170141183460469231731687303715884105728 := rfl
  rw [checkedDiv, if_neg hb.ne']
  rcases le_total 0 a with hnonneg | hnonpos
  · exact narrow_of_nonneg (Int.tdiv_nonneg hnonneg hb.le) ((Int.tdiv_le_self _ hnonneg).trans ha')
  · have hnonneg : 0 ≤ (-a).tdiv b := Int.tdiv_nonneg (by omega) hb.le
    have hle : (-a).tdiv b ≤ -a := Int.tdiv_le_self _ (by omega)
    rw [Int.neg_tdiv] at hnonneg hle
    exact narrow_of_mem (by omega) (by omega)

theorem saturatingAdd_nonneg {a b : Int} (ha : 0 ≤ a) (hb : 0 ≤ b) : 0 ≤ saturatingAdd a b :=
  le_max_of_le_right (le_min (add_nonneg ha hb) MAX_pos.le)

/-- A sum that stays below the bound was not cut off. -/
theorem saturatingAdd_eq {a b : Int} (ha : 0 ≤ a) (hb : 0 ≤ b) (h : saturatingAdd a b < MAX) :
    saturatingAdd a b = a + b := by
  have hmin : MIN ≤ 0 := by decide
  unfold saturatingAdd at h ⊢
  omega

end I128

/-! ## Rounding -/

namespace Int

/-- A quotient of non-negative money reaches `k` exactly when the dividend
covers `k` divisors. -/
theorem le_tdiv_iff {a b k : Int} (ha : 0 ≤ a) (hb : 0 < b) : k ≤ a.tdiv b ↔ k * b ≤ a := by
  rw [Int.tdiv_eq_ediv_of_nonneg ha]
  exact Int.le_ediv_iff_mul_le hb

/-- The quotient of non-negative money, by the multiples around the dividend. -/
theorem tdiv_eq_iff {a b q : Int} (ha : 0 ≤ a) (hb : 0 < b) :
    a.tdiv b = q ↔ q * b ≤ a ∧ a < (q + 1) * b := by
  rw [Int.tdiv_eq_ediv_of_nonneg ha]
  constructor
  · rintro rfl
    exact ⟨Int.ediv_mul_le a hb.ne', Int.lt_ediv_add_one_mul_self a hb⟩
  · rintro ⟨hle, hlt⟩
    have hlower : q ≤ a / b := Int.le_ediv_of_mul_le hb hle
    have hupper : a / b < q + 1 := Int.ediv_lt_of_lt_mul hb hlt
    omega

/-- A positive amount below a quotient forces the dividend to be positive too. -/
theorem mul_le_of_le_tdiv {a b k : Int} (hk : 0 < k) (hb : 0 < b) (h : k ≤ a.tdiv b) :
    k * b ≤ a := by
  rcases le_total 0 a with ha | ha
  · exact (le_tdiv_iff ha hb).mp h
  · have hopposite : 0 ≤ (-a).tdiv b := Int.tdiv_nonneg (by omega) hb.le
    rw [Int.neg_tdiv] at hopposite
    omega

end Int
