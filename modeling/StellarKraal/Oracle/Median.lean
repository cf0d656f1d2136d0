import Mathlib.Data.List.GetD
import StellarKraal.Contract.Oracles

/-!
# The median of a submission

The buffer has five cells, of which the sorting loops rearrange the first `n`.
Whatever they do there, each of these cells holds one of the submitted prices.
-/

namespace StellarKraal

open Except (refuseIf okOr)

/-- The first `n` cells are rearranged among themselves. -/
structure Rearranges (n : Nat) (arr arr' : List Int) : Prop where
  perm : arr'.Perm arr
  drop_eq : arr'.drop n = arr.drop n

namespace Rearranges

variable {n : Nat} {arr arr' arr'' : List Int}

theorem refl (n : Nat) (arr : List Int) : Rearranges n arr arr := ⟨.refl arr, rfl⟩

theorem trans (h : Rearranges n arr arr') (h' : Rearranges n arr' arr'') :
    Rearranges n arr arr'' :=
  ⟨h'.perm.trans h.perm, h'.drop_eq.trans h.drop_eq⟩

theorem length_eq (h : Rearranges n arr arr') : arr'.length = arr.length := h.perm.length_eq

theorem take_perm (h : Rearranges n arr arr') : (arr'.take n).Perm (arr.take n) := by
  have hperm := h.perm
  rw [← List.take_append_drop n arr', ← List.take_append_drop n arr, h.drop_eq] at hperm
  exact (List.perm_append_right_iff _).mp hperm

end Rearranges

theorem exchange_rearranges {n i j : Nat} {arr : List Int} (hn : n ≤ arr.length) (hi : i < n)
    (hj : j < n) : Rearranges n arr (exchange arr i j) := by
  unfold exchange
  split
  · rw [List.getD_eq_getElem _ _ (by omega), List.getD_eq_getElem _ _ (by omega)]
    refine ⟨List.set_set_perm (by omega) (by omega), ?_⟩
    rw [List.drop_set_of_lt hj, List.drop_set_of_lt hi]
  · exact .refl n arr

/-- One pass of the inner loop. -/
theorem exchangePass_rearranges {n i : Nat} {arr : List Int} (hn : n ≤ arr.length) (hi : i < n) :
    Rearranges n arr
      ((List.range' (i + 1) (n - (i + 1))).foldl (fun arr j => exchange arr i j) arr) := by
  refine List.foldlRecOn (motive := Rearranges n arr) _ _ (.refl n arr) ?_
  intro middle hmiddle j hj
  obtain ⟨-, hlt⟩ := List.mem_range'_1.mp hj
  exact hmiddle.trans (exchange_rearranges (hmiddle.length_eq ▸ hn) hi (by omega))

theorem exchangeSort_rearranges {n : Nat} {arr : List Int} (hn : n ≤ arr.length) :
    Rearranges n arr (exchangeSort arr n) := by
  refine List.foldlRecOn (motive := Rearranges n arr) _ _ (.refl n arr) ?_
  intro middle hmiddle i hi
  exact hmiddle.trans
    (exchangePass_rearranges (hmiddle.length_eq ▸ hn) (List.mem_range.mp hi))

/-- Filling the buffer writes the prices to its front. -/
theorem priceBuffer_eq {prices : List Int} (hlen : prices.length ≤ 5) :
    priceBuffer prices = prices ++ List.replicate (5 - prices.length) 0 := by
  suffices hinit : ∀ k ≤ prices.length,
      (List.range k).foldl (fun arr i => arr.set i (prices.getD i 0)) (List.replicate 5 0) =
        prices.take k ++ List.replicate (5 - k) 0 by
    rw [priceBuffer, hinit _ le_rfl, List.take_length]
  -- After `k` rounds the first `k` cells are filled and the rest is still zero.
  intro k hk
  induction k with
  | zero => rfl
  | succ k ih =>
      have hfill : List.replicate (5 - k) (0 : Int) = 0 :: List.replicate (5 - (k + 1)) 0 := by
        rw [← List.replicate_succ]
        congr 1
        omega
      rw [List.range_succ, List.foldl_append, ih (by omega), List.foldl_cons, List.foldl_nil,
        List.set_append_right _ _ (by simp), hfill, List.getD_eq_getElem _ _ hk,
        ← List.take_concat_get' _ _ hk, List.append_assoc]
      simp [Nat.min_eq_left (by omega : k ≤ prices.length)]

theorem length_priceBuffer {prices : List Int} (hlen : prices.length ≤ 5) :
    (priceBuffer prices).length = 5 := by
  rw [priceBuffer_eq hlen, List.length_append, List.length_replicate]
  omega

/-- Sorting rearranges the submitted prices in the front cells. -/
theorem exchangeSort_take_perm {prices : List Int} (hlen : prices.length ≤ 5) :
    ((exchangeSort (priceBuffer prices) prices.length).take prices.length).Perm prices := by
  have hfront := (exchangeSort_rearranges
    (hlen.trans (length_priceBuffer hlen).ge)).take_perm
  rwa [priceBuffer_eq hlen, List.take_left, ← priceBuffer_eq hlen] at hfront

theorem length_exchangeSort {prices : List Int} (hlen : prices.length ≤ 5) :
    (exchangeSort (priceBuffer prices) prices.length).length = 5 :=
  (exchangeSort_rearranges (hlen.trans (length_priceBuffer hlen).ge)).length_eq.trans
    (length_priceBuffer hlen)

/-- Every cell the median is read from holds a submitted price. -/
theorem exchangeSort_cell_mem {prices : List Int} (hlen : prices.length ≤ 5) {k : Nat}
    (hk : k < prices.length) :
    (exchangeSort (priceBuffer prices) prices.length).getD k 0 ∈ prices := by
  have hcell : k < (exchangeSort (priceBuffer prices) prices.length).length :=
    hk.trans_le (hlen.trans (length_exchangeSort hlen).ge)
  rw [List.getD_eq_getElem _ _ hcell]
  exact (exchangeSort_take_perm hlen).mem_iff.mp
    (List.mem_take_iff_getElem.mpr ⟨k, by omega, rfl⟩)

/-- One to five valid prices have a median, and it is a valid price too. -/
theorem medianOf_succeeds {prices : List Int} (hne : prices ≠ []) (hlen : prices.length ≤ 5)
    (hprices : ∀ p ∈ prices, 0 < p ∧ p < maxPrice) :
    ∃ median, medianOf prices = .ok median ∧ 0 < median ∧ median < maxPrice := by
  have hpos := List.length_pos_of_ne_nil hne
  have hcell : ∀ k < prices.length,
      0 < (exchangeSort (priceBuffer prices) prices.length).getD k 0 ∧
        (exchangeSort (priceBuffer prices) prices.length).getD k 0 < maxPrice :=
    fun k hk => hprices _ (exchangeSort_cell_mem hlen hk)
  obtain ⟨hmid_pos, hmid_lt⟩ := hcell (prices.length / 2) (by omega)
  simp only [medianOf, Except.refuseIf_of_not (not_lt.mpr hlen), Except.bind_of_ok]
  split
  · exact ⟨_, rfl, hmid_pos, hmid_lt⟩
  next heven =>
    obtain ⟨hlow_pos, hlow_lt⟩ := hcell (prices.length / 2 - 1) (by omega)
    have hmid : ¬ prices.length / 2 = 0 := by omega
    have hfits : I128.MAX = 170141183460469231731687303715884105727 := rfl
    have hcap : maxPrice = 1000000000000000000 := rfl
    rw [Except.refuseIf_of_not hmid, Except.bind_of_ok, I128.checkedAdd,
      I128.narrow_of_nonneg (by omega) (by omega), Except.okOr_some, Except.bind_of_ok]
    refine ⟨_, rfl, ?_, ?_⟩
    · exact Int.lt_of_lt_of_le (by decide) ((Int.le_tdiv_iff (by omega) (by decide)).mpr
        (by omega : (1 : Int) * 2 ≤ _))
    · rw [Int.tdiv_eq_ediv_of_nonneg (by omega)]
      omega

end StellarKraal
