import Mathlib.Tactic.NormNum
import StellarKraal.Aggregation.OffChain

/-!
# What a minority of feeds can do to the price

The reference median lies where more than half of the fresh samples lie, and the
surviving samples are within the deviation of it, whoever reported them. Below a
deviation of one hundred per cent that bounds the price by the honest range; a
larger one lets negative reports through, and they are bounded by the upper end
of the range only.
-/

namespace StellarKraal.Aggregation

open OrderStatistics (Middle)

variable {samples : List OraclePriceSample} {opts : AggregationOptions}
  {result : AggregationResult} {p lo hi : Number}

/-- More than half of the fresh samples report a price from `lo` to `hi`. -/
def HonestMajority (samples : List OraclePriceSample) (opts : AggregationOptions)
    (lo hi : Number) : Prop :=
  (freshSamples samples opts).length <
    2 * (freshSamples samples opts).countP fun s => decide (lo ≤ s.price ∧ s.price ≤ hi)

theorem HonestMajority.reference {ref : Number} (h : HonestMajority samples opts lo hi)
    (href : median ((freshSamples samples opts).map (·.price)) = .ok ref) :
    lo ≤ ref ∧ ref ≤ hi := by
  obtain ⟨low, high, hmid, rfl⟩ := median_ok href
  have hmajority : ((freshSamples samples opts).map (·.price)).length < 2 *
      ((freshSamples samples opts).map (·.price)).countP
        fun v => decide (lo ≤ v ∧ v ≤ hi) := by
    rw [List.length_map, List.countP_map]
    exact h
  obtain ⟨⟨hlow, hlow'⟩, hhigh, hhigh'⟩ := hmid.of_majority hmajority
  constructor <;> linarith

/-- A value that is no outlier is within the deviation of a positive reference. -/
theorem within_deviation {value ref d : Number} (href : 0 < ref)
    (h : isOutlier value ref d = false) :
    ref * (1 - d / 100) ≤ value ∧ value ≤ ref * (1 + d / 100) := by
  simp only [isOutlier, href.ne', if_false, decide_eq_false_iff_not, not_lt, abs_of_pos href] at h
  have hdev : |value - ref| ≤ ref * (d / 100) := by
    rw [div_mul_eq_mul_div, div_le_iff₀ href] at h
    linarith
  obtain ⟨hlow, hhigh⟩ := abs_le.mp hdev
  constructor <;> linarith

/-- The price is within the deviation of a reference in the honest range, and not
below zero unless some fresh sample is. -/
theorem price_near_reference (hlo : 0 < lo) (hmajority : HonestMajority samples opts lo hi)
    (hresult : aggregate samples opts = .ok result) (hprice : result.price = some p) :
    ∃ ref, lo ≤ ref ∧ ref ≤ hi ∧ ref * (1 - opts.maxDeviationPct / 100) ≤ p ∧
      p ≤ ref * (1 + opts.maxDeviationPct / 100) ∧
      ((∀ s ∈ freshSamples samples opts, 0 ≤ s.price) → 0 ≤ p) := by
  obtain ⟨ref, href, hmedian⟩ := aggregate_price hresult hprice
  obtain ⟨hge, hle⟩ := hmajority.reference href
  have hnear : ∀ v ∈ (survivingSamples (freshSamples samples opts) ref
      opts.maxDeviationPct).map (·.price),
      ref * (1 - opts.maxDeviationPct / 100) ≤ v ∧ v ≤ ref * (1 + opts.maxDeviationPct / 100) := by
    intro v hv
    obtain ⟨s, hs, rfl⟩ := List.mem_map.mp hv
    have hkept := (List.mem_filter.mp hs).2
    exact within_deviation (hlo.trans_le hge) (by simpa using hkept)
  obtain ⟨hlow, hhigh⟩ := median_between hmedian hnear
  refine ⟨ref, hge, hle, hlow, hhigh, fun hpositive => ?_⟩
  have hall : ∀ v ∈ (survivingSamples (freshSamples samples opts) ref
      opts.maxDeviationPct).map (·.price),
      0 ≤ v ∧ v ≤ ref * (1 + opts.maxDeviationPct / 100) := by
    intro v hv
    obtain ⟨s, hs, rfl⟩ := List.mem_map.mp hv
    exact ⟨hpositive s (List.mem_filter.mp hs).1, (hnear _ hv).2⟩
  exact (median_between hmedian hall).1

/-- The price stays below the honest range plus the deviation, and above the range
less the deviation where that is at most a hundred per cent or no fresh sample is
negative. In any case it stays above the upper end less the deviation. -/
theorem minority_bounded (hlo : 0 < lo) (hdev : 0 ≤ opts.maxDeviationPct)
    (hmajority : HonestMajority samples opts lo hi) (hresult : aggregate samples opts = .ok result)
    (hprice : result.price = some p) :
    p ≤ hi * (1 + opts.maxDeviationPct / 100) ∧
    ((opts.maxDeviationPct ≤ 100 ∨ ∀ s ∈ freshSamples samples opts, 0 ≤ s.price) →
      lo * (1 - opts.maxDeviationPct / 100) ≤ p) ∧
    (100 < opts.maxDeviationPct → hi * (1 - opts.maxDeviationPct / 100) ≤ p) := by
  obtain ⟨ref, hge, hle, hlow, hhigh, hpositive⟩ :=
    price_near_reference hlo hmajority hresult hprice
  refine ⟨?_, ?_, ?_⟩
  · have hscale := mul_le_mul_of_nonneg_right hle (by linarith :
      0 ≤ 1 + opts.maxDeviationPct / 100)
    exact hhigh.trans hscale
  · intro hcase
    rcases le_or_gt opts.maxDeviationPct 100 with hsmall | hlarge
    · have hscale := mul_le_mul_of_nonneg_right hge (by linarith :
        0 ≤ 1 - opts.maxDeviationPct / 100)
      exact hscale.trans hlow
    · have hbelow : lo * (1 - opts.maxDeviationPct / 100) ≤ 0 :=
        mul_nonpos_of_nonneg_of_nonpos hlo.le (by linarith)
      exact hbelow.trans (hpositive (hcase.resolve_left (not_le.mpr hlarge)))
  · intro hlarge
    have hscale := mul_le_mul_of_nonpos_right hle (by linarith :
      1 - opts.maxDeviationPct / 100 ≤ 0)
    exact hscale.trans hlow

/-! A ledger in which three feeds report. -/

namespace Sample

def report (prices : List Number) : List OraclePriceSample :=
  prices.map fun price => ⟨"feed", price, 7⟩

def options (maxDeviationPct : Number) : AggregationOptions := ⟨7, 0, maxDeviationPct, 1⟩

end Sample

/-- Two honest feeds and a third one that is dropped. -/
theorem sample_minority_bounded :
    let result : AggregationResult := ⟨some (21 / 2), ["feed", "feed"], [], ["feed"]⟩
    aggregate (Sample.report [10, 11, 1000]) (Sample.options 15) = .ok result ∧
      (21 / 2 : Number) ≤ 11 * (1 + 15 / 100) :=
  have hresult : aggregate (Sample.report [10, 11, 1000]) (Sample.options 15) =
      .ok ⟨some (21 / 2), ["feed", "feed"], [], ["feed"]⟩ := by decide +kernel
  ⟨hresult, (@minority_bounded _ (Sample.options 15) _ _ 10 11 (by norm_num) (by decide +kernel)
    (by unfold HonestMajority; decide +kernel) hresult rfl).1⟩

/-- At a deviation of four hundred per cent one negative report among three takes
the price below the range of the other two less the deviation. -/
theorem negative_minority_escapes :
    ¬ ∀ (samples : List OraclePriceSample) (opts : AggregationOptions)
      (result : AggregationResult) (p lo hi : Number), 0 < lo → 0 ≤ opts.maxDeviationPct →
        1 ≤ opts.minSources → HonestMajority samples opts lo hi →
          aggregate samples opts = .ok result → result.price = some p →
            lo * (1 - opts.maxDeviationPct / 100) ≤ p ∧
              p ≤ hi * (1 + opts.maxDeviationPct / 100) := by
  intro h
  have hresult : aggregate (Sample.report [-30, 10, 1000]) (Sample.options 400) =
      .ok ⟨some (-10), ["feed", "feed"], [], ["feed"]⟩ := by decide +kernel
  have hmajority : HonestMajority (Sample.report [-30, 10, 1000]) (Sample.options 400) 1 1000 := by
    unfold HonestMajority
    decide +kernel
  have hbound := (h _ _ _ (-10) 1 1000 (by norm_num) (by decide +kernel) (by decide +kernel)
    hmajority hresult rfl).1
  norm_num [Sample.options] at hbound

end StellarKraal.Aggregation
