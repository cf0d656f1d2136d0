import Mathlib.Data.Int.Log
import Mathlib.Data.Rat.Floor
import Mathlib.Tactic.Linarith
import Mathlib.Tactic.Positivity
import Mathlib.Tactic.Ring

/-!
# Rounding to floating-point numbers

A result is rounded to the nearest number with so many bits, and of two equally near
ones to the even one. The exponent has no bounds: there are no subnormal numbers and no
infinities.
-/

namespace FloatingPoint

/-! ## To an integer -/

/-- The nearest integer, and the even one of two. -/
def nearestEven (q : ℚ) : ℤ :=
  if q - ⌊q⌋ < 1 / 2 then ⌊q⌋
  else if 1 / 2 < q - ⌊q⌋ then ⌊q⌋ + 1
  else if ⌊q⌋ % 2 = 0 then ⌊q⌋
  else ⌊q⌋ + 1

theorem abs_nearestEven_sub_le (q : ℚ) : |(nearestEven q : ℚ) - q| ≤ 1 / 2 := by
  have hfloor := Int.floor_le q
  have hnext := Int.lt_floor_add_one q
  rw [abs_le]
  unfold nearestEven
  split_ifs <;> push_cast <;> constructor <;> linarith

/-- No integer is nearer. -/
theorem nearestEven_nearest (q : ℚ) (n : ℤ) : |(nearestEven q : ℚ) - q| ≤ |(n : ℚ) - q| := by
  by_cases hsame : n = nearestEven q
  · rw [hsame]
  · have hapart : (1 : ℚ) ≤ |(n : ℚ) - nearestEven q| := by
      exact_mod_cast Int.one_le_abs (sub_ne_zero.mpr hsame)
    have hnear := abs_nearestEven_sub_le q
    have htriangle := abs_sub_le (n : ℚ) q (nearestEven q)
    rw [abs_sub_comm q] at htriangle
    linarith

/-! ## Representable numbers -/

variable {p : ℕ} {x y : ℚ}

/-- An integer with `p` bits after the leading one, shifted. -/
def Representable (p : ℕ) (x : ℚ) : Prop := ∃ m e : ℤ, |m| ≤ 2 ^ (p + 1) ∧ x = m * 2 ^ e

theorem Representable.natCast {n : ℕ} (h : n ≤ 2 ^ (p + 1)) : Representable p (n : ℚ) :=
  ⟨n, 0, by rw [Nat.abs_cast]; exact_mod_cast h, by simp⟩

theorem Representable.neg (h : Representable p x) : Representable p (-x) := by
  obtain ⟨m, e, hm, rfl⟩ := h
  exact ⟨-m, e, by rwa [abs_neg], by push_cast; ring⟩

theorem Representable.half (h : Representable p x) : Representable p (x / 2) := by
  obtain ⟨m, e, hm, rfl⟩ := h
  refine ⟨m, e - 1, hm, ?_⟩
  rw [zpow_sub_one₀ two_ne_zero]
  ring

theorem Representable.add_self (h : Representable p x) : Representable p (x + x) := by
  obtain ⟨m, e, hm, rfl⟩ := h
  refine ⟨m, e + 1, hm, ?_⟩
  rw [zpow_add_one₀ two_ne_zero]
  ring

/-- Between two powers of two a representable number has the place of the last bit. -/
theorem Representable.multiple_of_le {e : ℤ} (h : Representable p x)
    (hx : (2 : ℚ) ^ (e + p) < |x|) : ∃ n : ℤ, x = n * 2 ^ e := by
  obtain ⟨m, d, hm, rfl⟩ := h
  have hd : e ≤ d := by
    by_contra hfine
    have hm' : |(m : ℚ)| ≤ 2 ^ (p + 1) := by exact_mod_cast hm
    have hsmall : |(m : ℚ) * 2 ^ d| ≤ 2 ^ (e + p) := by
      rw [abs_mul, abs_of_pos (zpow_pos two_pos d : (0 : ℚ) < 2 ^ d)]
      calc |(m : ℚ)| * 2 ^ d ≤ 2 ^ (p + 1) * 2 ^ d :=
            mul_le_mul_of_nonneg_right hm' (zpow_pos two_pos d).le
        _ = 2 ^ (d + 1 + p) := by
            rw [add_assoc, zpow_add₀ two_ne_zero, mul_comm, add_comm 1 (p : ℤ)]
            norm_cast
        _ ≤ 2 ^ (e + p) := zpow_le_zpow_right₀ one_le_two (by omega)
    exact absurd hx (not_lt.mpr hsmall)
  obtain ⟨shift, rfl⟩ := Int.le.dest hd
  refine ⟨m * 2 ^ shift, ?_⟩
  rw [zpow_add₀ two_ne_zero, zpow_natCast]
  push_cast
  ring

/-! ## Rounding -/

/-- The exponent of the last bit that is kept. -/
def ulpExponent (p : ℕ) (x : ℚ) : ℤ := Int.log 2 |x| - p

def round (p : ℕ) (x : ℚ) : ℚ := nearestEven (x / 2 ^ ulpExponent p x) * 2 ^ ulpExponent p x

theorem ulp_pos (p : ℕ) (x : ℚ) : (0 : ℚ) < 2 ^ ulpExponent p x := zpow_pos two_pos _

theorem abs_lt_ulp (p : ℕ) (x : ℚ) : |x| < 2 ^ (p + 1) * 2 ^ ulpExponent p x := by
  have hlog := Int.lt_zpow_succ_log_self Nat.one_lt_two |x|
  have hexponent : Int.log 2 |x| + 1 = (p + 1 : ℕ) + ulpExponent p x := by
    rw [ulpExponent]
    push_cast
    ring
  rwa [hexponent, Nat.cast_ofNat, zpow_add₀ two_ne_zero, zpow_natCast] at hlog

/-- The leading bit is the one before the `p` others. -/
theorem lead_le_abs (hx : x ≠ 0) : (2 : ℚ) ^ (ulpExponent p x + p) ≤ |x| := by
  have hlog := Int.zpow_log_le_self Nat.one_lt_two (abs_pos.mpr hx)
  rwa [← sub_add_cancel (Int.log 2 |x|) (p : ℤ), Nat.cast_ofNat] at hlog

theorem round_zero (p : ℕ) : round p 0 = 0 := by
  simp [round, nearestEven]

theorem abs_round_sub (p : ℕ) (x : ℚ) : |round p x - x| =
    |(nearestEven (x / 2 ^ ulpExponent p x) : ℚ) - x / 2 ^ ulpExponent p x| *
      2 ^ ulpExponent p x := by
  have hpos := ulp_pos p x
  rw [← abs_of_pos hpos, ← abs_mul, abs_of_pos hpos, sub_mul, div_mul_cancel₀ _ hpos.ne', round]

theorem round_representable (p : ℕ) (x : ℚ) : Representable p (round p x) := by
  refine ⟨nearestEven (x / 2 ^ ulpExponent p x), ulpExponent p x, ?_, rfl⟩
  have hpos := ulp_pos p x
  have hnear := abs_le.mp (abs_nearestEven_sub_le (x / 2 ^ ulpExponent p x))
  have hsize : |x / 2 ^ ulpExponent p x| < 2 ^ (p + 1) := by
    rw [abs_div, abs_of_pos hpos, div_lt_iff₀ hpos]
    exact abs_lt_ulp p x
  obtain ⟨hlow, hhigh⟩ := abs_lt.mp hsize
  generalize nearestEven (x / 2 ^ ulpExponent p x) = k at hnear ⊢
  -- An integer within a half of the bound does not exceed it.
  have hbelow : (k : ℚ) < ((2 ^ (p + 1) + 1 : ℤ) : ℚ) := by
    push_cast
    linarith
  have habove : ((-(2 ^ (p + 1)) - 1 : ℤ) : ℚ) < k := by
    push_cast
    linarith
  rw [Int.cast_lt] at hbelow habove
  rw [abs_le]
  omega

/-- Among the multiples of the last place none is nearer. -/
theorem round_nearest_multiple (p : ℕ) (x : ℚ) (n : ℤ) :
    |round p x - x| ≤ |(n : ℚ) * 2 ^ ulpExponent p x - x| := by
  have hpos := ulp_pos p x
  have hn : |(n : ℚ) * 2 ^ ulpExponent p x - x| =
      |(n : ℚ) - x / 2 ^ ulpExponent p x| * 2 ^ ulpExponent p x := by
    rw [← abs_of_pos hpos, ← abs_mul, abs_of_pos hpos, sub_mul, div_mul_cancel₀ _ hpos.ne']
  rw [abs_round_sub, hn]
  exact mul_le_mul_of_nonneg_right (nearestEven_nearest _ n) hpos.le

/-- No representable number is nearer. -/
theorem round_nearest (x : ℚ) (h : Representable p y) : |round p x - x| ≤ |y - x| := by
  rcases eq_or_ne x 0 with rfl | hx
  · rw [round_zero, sub_self, abs_zero]
    exact abs_nonneg _
  rcases lt_or_ge (2 ^ (ulpExponent p x + p)) |y| with hlarge | hsmall
  · obtain ⟨n, rfl⟩ := h.multiple_of_le hlarge
    exact round_nearest_multiple p x n
  · -- The power of two that `x` begins with lies between the two.
    have hlead := lead_le_abs (p := p) hx
    have hmultiple : ∀ s : ℤ, |round p x - x| ≤ |s * 2 ^ (ulpExponent p x + p) - x| := by
      intro s
      have hnear := round_nearest_multiple p x (s * 2 ^ p)
      rw [zpow_add₀ two_ne_zero, zpow_natCast, mul_comm (2 ^ ulpExponent p x), ← mul_assoc]
      exact_mod_cast hnear
    obtain ⟨hlow, hhigh⟩ := abs_le.mp hsmall
    rcases lt_or_gt_of_ne hx with hneg | hpos
    · rw [abs_of_neg hneg] at hlead
      refine (hmultiple (-1)).trans (abs_le_abs_of_nonneg ?_ ?_) <;> push_cast <;> linarith
    · rw [abs_of_pos hpos] at hlead
      refine (hmultiple 1).trans (abs_le_abs_of_nonpos ?_ ?_) <;> push_cast <;> linarith

theorem Representable.round_eq (h : Representable p x) : round p x = x := by
  have hnear := round_nearest x h
  rw [sub_self, abs_zero] at hnear
  exact sub_eq_zero.mp (abs_nonpos_iff.mp hnear)

theorem round_natCast {n : ℕ} (h : n ≤ 2 ^ (p + 1)) : round p (n : ℚ) = n :=
  (Representable.natCast h).round_eq

theorem round_mono (p : ℕ) : Monotone (round p) := by
  intro x y hle
  by_contra hlt
  rw [not_le] at hlt
  -- Each is at least as near to its own rounding, so they stand on the wrong sides.
  have hx := round_nearest x (round_representable p y)
  have hy := round_nearest y (round_representable p x)
  rcases hle.eq_or_lt with rfl | hlt'
  · exact lt_irrefl _ hlt
  · rcases abs_cases (round p x - x) with ⟨h₁, _⟩ | ⟨h₁, _⟩ <;>
    rcases abs_cases (round p y - x) with ⟨h₂, _⟩ | ⟨h₂, _⟩ <;>
    rcases abs_cases (round p x - y) with ⟨h₃, _⟩ | ⟨h₃, _⟩ <;>
    rcases abs_cases (round p y - y) with ⟨h₄, _⟩ | ⟨h₄, _⟩ <;>
    linarith

theorem round_le (h : Representable p y) (hle : x ≤ y) : round p x ≤ y :=
  h.round_eq ▸ round_mono p hle

theorem le_round (h : Representable p y) (hle : y ≤ x) : y ≤ round p x :=
  h.round_eq ▸ round_mono p hle

theorem abs_round_le (h : Representable p y) (hle : |x| ≤ y) : |round p x| ≤ y := by
  obtain ⟨hlow, hhigh⟩ := abs_le.mp hle
  exact abs_le.mpr ⟨le_round h.neg hlow, round_le h hhigh⟩

theorem round_nonneg (h : 0 ≤ x) : 0 ≤ round p x :=
  round_zero p ▸ round_mono p h

/-- The relative error is at most half a unit in the last place. -/
theorem abs_round_sub_le (p : ℕ) (x : ℚ) : |round p x - x| ≤ |x| / 2 ^ (p + 1) := by
  rcases eq_or_ne x 0 with rfl | hx
  · simp [round_zero]
  · have hlead := lead_le_abs (p := p) hx
    rw [zpow_add₀ two_ne_zero, zpow_natCast] at hlead
    have hnear := abs_nearestEven_sub_le (x / 2 ^ ulpExponent p x)
    have hpos := ulp_pos p x
    rw [abs_round_sub, le_div_iff₀ (by positivity)]
    calc |(nearestEven (x / 2 ^ ulpExponent p x) : ℚ) - x / 2 ^ ulpExponent p x| *
          2 ^ ulpExponent p x * 2 ^ (p + 1)
        ≤ 1 / 2 * 2 ^ ulpExponent p x * 2 ^ (p + 1) := by gcongr
      _ = 2 ^ ulpExponent p x * 2 ^ p := by ring
      _ ≤ |x| := hlead

theorem round_pos (h : 0 < x) : 0 < round p x := by
  have herror := (abs_le.mp (abs_round_sub_le p x)).1
  rw [abs_of_pos h] at herror
  have hhalf : x / 2 ^ (p + 1) < x := div_lt_self h (one_lt_pow₀ one_lt_two p.succ_ne_zero)
  linarith

/-- The numbers of 64 bits, with 52 after the leading one. -/
abbrev binary64 : ℚ → ℚ := round 52

end FloatingPoint
