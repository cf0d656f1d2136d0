import StellarKraal.Foundation.DecimalText
import Mathlib.Algebra.Order.Floor.Semifield

/-!
# Rounding to decimal places

What `parseFloat(x.toFixed(places))` comes to: the nearest multiple of the last place,
and `x` itself where it is too large to be written out. The multiple is exact here;
`parseFloat` takes the double nearest to it.
-/

namespace DecimalText

/-- The number that `toFixed` writes. -/
def fixedValue (places : Nat) (x : Rat) : Rat :=
  if 10 ^ 21 ≤ |x| then x
  else
    let size : Rat := ⌊|x| * 10 ^ places + 1 / 2⌋₊ / 10 ^ places
    if x < 0 then -size else size

variable {places : Nat} {x y : Rat}

theorem fixedValue_of_small (h0 : 0 ≤ x) (hsmall : x < 10 ^ 21) :
    fixedValue places x = ⌊x * 10 ^ places + 1 / 2⌋₊ / 10 ^ places := by
  have habs : |x| = x := abs_of_nonneg h0
  rw [fixedValue, habs, if_neg (not_le.mpr hsmall)]
  exact if_neg (not_lt.mpr h0)

theorem fixedValue_of_large (h0 : 0 ≤ x) (hlarge : 10 ^ 21 ≤ x) : fixedValue places x = x := by
  rw [fixedValue, abs_of_nonneg h0, if_pos hlarge]

theorem fixedValue_nonneg (h0 : 0 ≤ x) : 0 ≤ fixedValue places x := by
  rcases lt_or_ge x (10 ^ 21) with hsmall | hlarge
  · rw [fixedValue_of_small h0 hsmall]
    positivity
  · rwa [fixedValue_of_large h0 hlarge]

theorem fixedValue_nonpos (h0 : x ≤ 0) : fixedValue places x ≤ 0 := by
  unfold fixedValue
  split
  next => exact h0
  next =>
    dsimp only
    split
    next => exact neg_nonpos.mpr (by positivity)
    next hnonneg =>
      obtain rfl := le_antisymm h0 (not_lt.mp hnonneg)
      norm_num

/-- Rounding moves a number by at most half a unit of the last place. -/
theorem fixedValue_error (h0 : 0 ≤ x) : |fixedValue places x - x| ≤ 1 / (2 * 10 ^ places) := by
  rcases lt_or_ge x (10 ^ 21) with hsmall | hlarge
  · have hpow : (0 : Rat) < 10 ^ places := by positivity
    have hlow := Nat.lt_floor_add_one (x * 10 ^ places + 1 / 2)
    have hhigh := Nat.floor_le (show 0 ≤ x * 10 ^ places + 1 / 2 by positivity)
    rw [fixedValue_of_small h0 hsmall, abs_le]
    generalize (⌊x * 10 ^ places + 1 / 2⌋₊ : Rat) = n at hlow hhigh
    constructor
    · rw [neg_le_sub_iff_le_add, ← sub_le_iff_le_add, le_div_iff₀ hpow, sub_mul]
      field_simp
      linarith
    · rw [sub_le_iff_le_add, div_le_iff₀ hpow, add_mul]
      field_simp
      linarith
  · rw [fixedValue_of_large h0 hlarge, sub_self, abs_zero]
    positivity

/-- What is rounded is a multiple of the last place, where it is not too large. -/
theorem exists_fixedValue_multiple (hsmall : |fixedValue places x| < 10 ^ 21) :
    ∃ n : Int, fixedValue places x * 10 ^ places = n := by
  unfold fixedValue at hsmall ⊢
  split at hsmall
  next hlarge => exact absurd hlarge (not_le.mpr hsmall)
  next hx =>
    rw [if_neg hx]
    dsimp only
    split
    · refine ⟨-⌊|x| * 10 ^ places + 1 / 2⌋₊, ?_⟩
      push_cast
      field_simp
    · refine ⟨⌊|x| * 10 ^ places + 1 / 2⌋₊, ?_⟩
      push_cast
      field_simp

theorem fixedValue_mono (h0 : 0 ≤ x) (hxy : x ≤ y) : fixedValue places x ≤ fixedValue places y := by
  have hy := h0.trans hxy
  have hpow : (0 : Rat) < 10 ^ places := by positivity
  rcases lt_or_ge y (10 ^ 21) with hsmall | hlarge
  · rw [fixedValue_of_small h0 (hxy.trans_lt hsmall), fixedValue_of_small hy hsmall]
    gcongr
  rcases lt_or_ge x (10 ^ 21) with hsmall | hxlarge
  -- Rounding does not pass the bound, which is a multiple itself.
  · have hbound : ⌊x * 10 ^ places + 1 / 2⌋₊ ≤ 10 ^ 21 * 10 ^ places := by
      have hfloor := Nat.floor_le (show 0 ≤ x * 10 ^ places + 1 / 2 by positivity)
      have hlt : x * 10 ^ places < 10 ^ 21 * 10 ^ places := by gcongr
      have : (⌊x * 10 ^ places + 1 / 2⌋₊ : Rat) < (10 ^ 21 * 10 ^ places + 1 : Nat) := by
        push_cast
        linarith
      exact Nat.lt_succ_iff.mp (by exact_mod_cast this)
    rw [fixedValue_of_small h0 hsmall, fixedValue_of_large hy hlarge]
    refine le_trans ?_ hlarge
    rw [div_le_iff₀ hpow]
    exact_mod_cast hbound
  · rwa [fixedValue_of_large h0 hxlarge, fixedValue_of_large hy hlarge]

end DecimalText
