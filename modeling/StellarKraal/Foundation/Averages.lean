import Mathlib.Algebra.BigOperators.Ring.List
import Mathlib.Algebra.Order.BigOperators.Group.List
import StellarKraal.Foundation.MachineArithmetic

/-!
# Averages of integers

The quotient of a sum and a count lies between the smallest and the largest
element. Machine sums and counts are cut off at their bounds; what is left of the
two halves is said for each cut on its own.
-/

namespace List

variable {l : List Int}

/-- Some element is at most the average. -/
theorem exists_mul_length_le_sum (hne : l ≠ []) : ∃ x ∈ l, x * l.length ≤ l.sum := by
  by_contra! hlarge
  have hlen : (0 : Int) < l.length := by exact_mod_cast List.length_pos_of_ne_nil hne
  have hall : ∀ y ∈ l.map (· * (l.length : Int)), l.sum + 1 ≤ y := by
    intro y hy
    obtain ⟨x, hx, rfl⟩ := List.mem_map.mp hy
    exact hlarge x hx
  have hsum := List.card_nsmul_le_sum _ _ hall
  rw [List.length_map, List.sum_map_mul_right, List.map_id', nsmul_eq_mul] at hsum
  linarith

/-- Some element is at least the average. -/
theorem exists_sum_le_mul_length (hne : l ≠ []) : ∃ x ∈ l, l.sum ≤ x * l.length := by
  by_contra! hsmall
  have hlen : (0 : Int) < l.length := by exact_mod_cast List.length_pos_of_ne_nil hne
  have hall : ∀ y ∈ l.map (· * (l.length : Int)), y ≤ l.sum - 1 := by
    intro y hy
    obtain ⟨x, hx, rfl⟩ := List.mem_map.mp hy
    exact Int.le_sub_one_of_lt (hsmall x hx)
  have hsum := List.sum_le_card_nsmul _ _ hall
  rw [List.length_map, List.sum_map_mul_right, List.map_id', nsmul_eq_mul] at hsum
  linarith

variable {total : Int} {count : Nat}

/-- The lower bound, for a sum that is cut off at `bound` and a count that may be too
small: it needs one element whose multiple is not cut off. -/
theorem exists_le_average_iff {bound : Int} (hne : l ≠ []) (hnonneg : ∀ x ∈ l, 0 ≤ x)
    (hbound : 0 ≤ bound) (hcount : 0 < count) (hle : count ≤ l.length)
    (htotal : total = min l.sum bound) :
    (∃ x ∈ l, x ≤ total.tdiv count) ↔ ∃ x ∈ l, x * count ≤ bound := by
  have htotal_nonneg : 0 ≤ total := htotal ▸ le_min (List.sum_nonneg hnonneg) hbound
  have hcount_pos : (0 : Int) < count := by exact_mod_cast hcount
  constructor
  · rintro ⟨x, hx, hle⟩
    rw [Int.le_tdiv_iff htotal_nonneg hcount_pos, htotal] at hle
    exact ⟨x, hx, hle.trans (min_le_right _ _)⟩
  · rintro ⟨x, hx, hfits⟩
    obtain ⟨y, hy, hy_le⟩ := exists_mul_length_le_sum hne
    have hy_sum : y * count ≤ l.sum :=
      (mul_le_mul_of_nonneg_left (by exact_mod_cast hle) (hnonneg y hy)).trans hy_le
    -- Of the two, the one with the smaller multiple is below both the sum and the bound.
    rcases le_total (y * count) bound with hyfits | hybig
    · refine ⟨y, hy, ?_⟩
      rw [Int.le_tdiv_iff htotal_nonneg hcount_pos, htotal]
      exact le_min hy_sum hyfits
    · refine ⟨x, hx, ?_⟩
      rw [Int.le_tdiv_iff htotal_nonneg hcount_pos, htotal]
      exact le_min (hfits.trans (hybig.trans hy_sum)) hfits

/-- The upper bound, for a count that is cut off at `bound`. -/
theorem exists_average_le_iff {bound : Nat} (hne : l ≠ []) (hbound : 0 < bound)
    (hcount : count = min l.length bound) (hnonneg : 0 ≤ total) (htotal : total ≤ l.sum) :
    (∃ x ∈ l, total.tdiv count ≤ x) ↔
      l.length ≤ bound ∨ ∃ x ∈ l, total < (x + 1) * bound := by
  have hlen := List.length_pos_of_ne_nil hne
  have hcount_pos : (0 : Int) < count := by
    rw [hcount]
    exact_mod_cast lt_min hlen hbound
  have hdiv : ∀ x, total.tdiv count ≤ x ↔ total < (x + 1) * count := fun x => by
    rw [← Int.lt_add_one_iff, Int.tdiv_eq_ediv_of_nonneg hnonneg]
    exact Int.ediv_lt_iff_lt_mul hcount_pos
  simp only [hdiv]
  rcases le_or_gt l.length bound with hfits | hcut
  · refine iff_of_true ?_ (.inl hfits)
    obtain ⟨x, hx, hle⟩ := exists_sum_le_mul_length hne
    rw [min_eq_left hfits] at hcount
    refine ⟨x, hx, (htotal.trans hle).trans_lt ?_⟩
    rw [hcount, add_mul]
    omega
  · rw [min_eq_right hcut.le] at hcount
    simp only [hcount, not_le.mpr hcut, false_or]

end List
