import StellarKraal.Foundation.OrderStatistics
import StellarKraal.CarbonOracle.Registry

/-!
# When the carbon oracle answers

The median is read from a buffer of twenty cells, and for an even number of
prices from a sum of two of them.
-/

namespace StellarKraal.CarbonOracle

open OrderStatistics (Middle kthSmallest)

variable {w : State} {s : Settings} {low high : Nat}

theorem sorted_getD {prices : List Nat} {k x : Nat} (h : kthSmallest prices k = some x) :
    (BubbleSort.bubbleSort (pricesArray prices) prices.length).getD k 0 = x := by
  obtain ⟨hk, hx⟩ := List.getElem?_eq_some_iff.mp h
  rw [pricesArray, BubbleSort.bubbleSort_append, List.getD_append _ _ _ _ hk,
    List.getD_eq_getElem _ _ hk, hx]

/-- The median is the mean of the two middle prices, rounded down, where the
buffer and the sum can hold what they are given. -/
theorem getMedianPrice_eq (hs : w.settings = some s) (hfew : (validPrices w s).length ≤ 20)
    (hmid : Middle (validPrices w s) low high) :
    getMedianPrice w =
      if (validPrices w s).length % 2 = 1 ∨ low + high ≤ U64.MAX then .ok ((low + high) / 2)
      else .error .trap := by
  have hlow := sorted_getD hmid.low
  have hhigh := sorted_getD hmid.high
  have hpos : (validPrices w s).length ≠ 0 := by
    have := (List.getElem?_eq_some_iff.mp hmid.high).1
    rw [List.length_insertionSort] at this
    omega
  simp only [getMedianPrice, hs, Except.okOr_some, Except.bind_of_ok,
    Except.refuseIf_of_not hpos, Except.refuseIf_of_not (not_lt.mpr hfew)]
  split
  next hodd =>
    obtain rfl := hmid.eq_of_odd hodd
    rw [if_pos (.inl hodd), hhigh]
    have hmean : (low + low) / 2 = low := by omega
    rw [hmean]
    rfl
  next heven =>
    have hindex : (validPrices w s).length / 2 - 1 = ((validPrices w s).length - 1) / 2 := by omega
    rw [hindex, hlow, hhigh, U64.checkedAdd]
    by_cases hfits : low + high ≤ U64.MAX
    · rw [if_pos hfits, if_pos (.inr hfits)]
      rfl
    · rw [if_neg hfits, if_neg (by tauto)]
      rfl

theorem getMedianPrice_crowded (hs : w.settings = some s)
    (hmany : 20 < (validPrices w s).length) :
    getMedianPrice w = .error (.message "too many oracles") := by
  have hpos : (validPrices w s).length ≠ 0 := by omega
  have hcrowded : Except.refuseIf ((validPrices w s).length > 20) (Panic.message "too many oracles")
      = .error (.message "too many oracles") := if_pos hmany
  simp only [getMedianPrice, hs, Except.okOr_some, Except.bind_of_ok,
    Except.refuseIf_of_not hpos, hcrowded, Except.bind_of_error]

theorem getMedianPrice_empty (hs : w.settings = some s) (hempty : validPrices w s = []) :
    getMedianPrice w = .error (.message "no valid oracle submissions") := by
  simp [getMedianPrice, hs, hempty, Except.refuseIf]

theorem Contributes.validPrices_ne_nil {oracle : Address} (h : Contributes w oracle)
    (hs : w.settings = some s) : validPrices w s ≠ [] := by
  obtain ⟨s', price, hs', hmem, hfresh⟩ := h
  obtain rfl := Option.mem_unique hs hs'
  exact List.ne_nil_of_mem (List.mem_filterMap.mpr ⟨oracle, hmem, hfresh⟩)

/-- While an oracle has a fresh price and at most twenty of them do, the median is
there, between the two middle prices, if these can be added; a larger crowd makes
it panic. -/
theorem median_answers {oracle : Address} (hfresh : Contributes w oracle) :
    ∃ s low high, w.settings = some s ∧ Middle (validPrices w s) low high ∧
      ((validPrices w s).length ≤ 20 →
        (validPrices w s).length % 2 = 1 ∨ low + high ≤ U64.MAX →
          ∃ price, getMedianPrice w = .ok price ∧ low ≤ price ∧ price ≤ high) ∧
      (20 < (validPrices w s).length →
        getMedianPrice w = .error (.message "too many oracles")) := by
  obtain ⟨s, price, hs, hmem, hprice⟩ := id hfresh
  obtain ⟨low, high, hmid⟩ := Middle.exists (hfresh.validPrices_ne_nil hs)
  refine ⟨s, low, high, hs, hmid, ?_, getMedianPrice_crowded hs⟩
  intro hfew hfits
  have hle := hmid.le
  rw [getMedianPrice_eq hs hfew hmid, if_pos hfits]
  exact ⟨_, rfl, by omega, by omega⟩

/-- Two of three prices are too large to be added, and need not be. -/
theorem sample_median_answers :
    let w := Sample.after [Sample.initialization 50, Sample.registration 1,
      Sample.registration 2, Sample.registration 3, Sample.submission 1 U64.MAX,
      Sample.submission 2 40, Sample.submission 3 U64.MAX]
    (∃ s low high, w.settings = some s ∧ Middle (validPrices w s) low high ∧
      ((validPrices w s).length ≤ 20 →
        (validPrices w s).length % 2 = 1 ∨ low + high ≤ U64.MAX →
          ∃ price, getMedianPrice w = .ok price ∧ low ≤ price ∧ price ≤ high) ∧
      (20 < (validPrices w s).length →
        getMedianPrice w = .error (.message "too many oracles"))) ∧
    getMedianPrice w = .ok U64.MAX := by
  refine ⟨@median_answers _ (Sample.oracle 1) ⟨_, U64.MAX, rfl, ?_, ?_⟩, ?_⟩ <;> decide

/-- Not every reachable state with a fresh price has a median. One with twenty-one
has none, and neither has one with two that together exceed a `u64`. -/
theorem median_may_panic :
    ¬ (∀ w oracle, system.Reachable w → Contributes w oracle →
      ∃ price, getMedianPrice w = .ok price) ∧
    ¬ (∀ w oracle s, system.Reachable w → Contributes w oracle → w.settings = some s →
      (validPrices w s).length ≤ 20 → ∃ price, getMedianPrice w = .ok price) := by
  constructor
  · intro h
    have hcrowd : getMedianPrice (Sample.crowd 21 1) = .error (.message "too many oracles") := by
      decide +kernel
    have hsettings : (Sample.crowd 21 1).settings =
        some ⟨Sample.admin, 50, (List.range 21).map Sample.oracle⟩ := by
      decide +kernel
    have hfresh : Contributes (Sample.crowd 21 1) (Sample.oracle 0) :=
      ⟨_, 1, hsettings, by decide, by decide +kernel⟩
    obtain ⟨price, hprice⟩ := h (Sample.crowd 21 1) _ (Sample.after_reachable _) hfresh
    simp [hcrowd] at hprice
  · intro h
    have htrap : getMedianPrice (Sample.crowd 2 U64.MAX) = .error .trap := by decide
    obtain ⟨price, hprice⟩ := h (Sample.crowd 2 U64.MAX) (Sample.oracle 0) _
      (Sample.after_reachable _) ⟨_, U64.MAX, rfl, by decide, by decide⟩ rfl (by decide)
    simp [htrap] at hprice

end StellarKraal.CarbonOracle
