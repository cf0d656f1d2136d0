import StellarKraal.Aggregation.OffChain

/-!
# What becomes of a sample

A sample is stale, or too far from the median of those that are not, or used. The
result of the aggregation says of every sample which, and depends on nothing else
than the samples that are there.
-/

namespace StellarKraal.Aggregation

open OrderStatistics (Middle kthSmallest kthSmallest_mem kthSmallest_perm)

/-! ## The median as a number -/

/-- The mean of the two middle entries. -/
def midpoint (values : List Number) : Number :=
  ((kthSmallest values ((values.length - 1) / 2)).getD 0 +
    (kthSmallest values (values.length / 2)).getD 0) / 2

theorem midpoint_eq {values : List Number} {low high : Number} (h : Middle values low high) :
    midpoint values = (low + high) / 2 := by
  rw [midpoint, h.low, h.high, Option.getD_some, Option.getD_some]

theorem median_eq_midpoint {values : List Number} (hne : values ≠ []) :
    median values = .ok (midpoint values) := by
  obtain ⟨low, high, hmid⟩ := Middle.exists hne
  rw [midpoint_eq hmid, median_of_middle hmid]

theorem midpoint_perm {values values' : List Number} (h : values'.Perm values) :
    midpoint values' = midpoint values := by
  rw [midpoint, kthSmallest_perm h, kthSmallest_perm h, h.length_eq, midpoint]

theorem midpoint_between {values : List Number} (hne : values ≠ []) :
    ∃ low ∈ values, ∃ high ∈ values, low ≤ midpoint values ∧ midpoint values ≤ high := by
  obtain ⟨low, high, hmid⟩ := Middle.exists hne
  have hle := hmid.le
  rw [midpoint_eq hmid]
  exact ⟨low, kthSmallest_mem hmid.low, high, kthSmallest_mem hmid.high, by linarith, by linarith⟩

/-! ## Standings -/

/-- More than `pct` per cent of the reference away from it. From zero, anything else is. -/
abbrev Deviates (value reference pct : Number) : Prop :=
  pct * |reference| < 100 * |value - reference|

theorem isOutlier_eq (value reference pct : Number) :
    isOutlier value reference pct = decide (Deviates value reference pct) := by
  rw [isOutlier]
  split
  next hzero => simp [Deviates, hzero]
  next hne =>
    have hpos : 0 < |reference| := abs_pos.mpr hne
    simp only [Deviates, gt_iff_lt, div_mul_eq_mul_div, lt_div_iff₀ hpos,
      mul_comm |value - reference|]

/-- Older than the options allow. -/
abbrev Stale (opts : AggregationOptions) (s : OraclePriceSample) : Prop :=
  opts.maxAgeLedgers < opts.currentLedger - s.ledger

inductive Standing
  | stale
  | outlier
  | used
  deriving DecidableEq

section

variable (samples : List OraclePriceSample) (opts : AggregationOptions)

def freshMedian : Number :=
  midpoint ((samples.filter fun s => ¬ Stale opts s).map (·.price))

/-- How a sample stands among the others. -/
def standing (s : OraclePriceSample) : Standing :=
  if Stale opts s then .stale
  else if Deviates s.price (freshMedian samples opts) opts.maxDeviationPct then .outlier
  else .used

/-- The samples with one standing, in the order of the list. -/
def having (st : Standing) : List OraclePriceSample :=
  samples.filter fun s => standing samples opts s = st

end

variable {samples samples' : List OraclePriceSample} {opts : AggregationOptions}

theorem standing_perm (h : samples'.Perm samples) :
    standing samples' opts = standing samples opts := by
  have hmedian : freshMedian samples' opts = freshMedian samples opts :=
    midpoint_perm ((h.filter _).map _)
  funext s
  rw [standing, hmedian, standing]

theorem having_perm (h : samples'.Perm samples) (st : Standing) :
    (having samples' opts st).Perm (having samples opts st) := by
  rw [having, standing_perm h]
  exact h.filter _

/-- Every sample has one standing. -/
theorem having_partition (samples : List OraclePriceSample) (opts : AggregationOptions) :
    (having samples opts .stale ++ having samples opts .outlier ++ having samples opts .used).Perm
      samples := by
  rw [having, having, having]
  generalize standing samples opts = f
  induction samples with
  | nil => rfl
  | cons s rest ih =>
      simp only [List.filter_cons]
      cases hs : f s with
      | stale => exact ih.cons s
      | outlier => exact (List.perm_middle.append_right _).trans (ih.cons s)
      | used => exact List.perm_middle.trans (ih.cons s)

/-! ## The result -/

theorem having_stale : having samples opts .stale =
    samples.filter fun s => isStale opts.currentLedger s.ledger opts.maxAgeLedgers := by
  refine List.filter_congr fun s _ => ?_
  rw [standing, isStale]
  split_ifs <;> simp_all

theorem having_outlier : having samples opts .outlier = (freshSamples samples opts).filter fun s =>
    isOutlier s.price (freshMedian samples opts) opts.maxDeviationPct := by
  rw [freshSamples, List.filter_filter]
  refine List.filter_congr fun s _ => ?_
  rw [standing, isStale, isOutlier_eq]
  split_ifs <;> simp_all

theorem having_used : having samples opts .used = survivingSamples (freshSamples samples opts)
    (freshMedian samples opts) opts.maxDeviationPct := by
  rw [survivingSamples, freshSamples, List.filter_filter]
  refine List.filter_congr fun s _ => ?_
  rw [standing, isStale, isOutlier_eq]
  split_ifs <;> simp_all

theorem median_fresh_eq (hne : freshSamples samples opts ≠ []) :
    median ((freshSamples samples opts).map (·.price)) = .ok (freshMedian samples opts) := by
  have hfresh : freshSamples samples opts = samples.filter fun s => ¬ Stale opts s :=
    List.filter_congr fun s _ => (decide_not (p := Stale opts s)).symm
  rw [median_eq_midpoint (by simpa using hne), freshMedian, hfresh]

theorem ne_nil_of_enough {α : Type} {l : List α} (hmin : 1 ≤ opts.minSources)
    (henough : opts.minSources ≤ (l.length : Number)) : l ≠ [] := by
  rintro rfl
  exact absurd (hmin.trans henough) (by norm_num)

/-- The result, for one source or more. -/
theorem aggregate_eq (samples : List OraclePriceSample) (hmin : 1 ≤ opts.minSources) :
    let used := having samples opts .used
    let enough := opts.minSources ≤ (used.length : Number)
    aggregate samples opts = .ok
      { price := if enough then some (midpoint (used.map (·.price))) else none
        usedSources := if enough then used.map (·.source) else []
        rejectedStale := (having samples opts .stale).map (·.source)
        rejectedOutlier := (having samples opts .outlier).map (·.source) } := by
  intro used enough
  rw [aggregate, having_stale, having_outlier]
  by_cases hfresh : freshSamples samples opts = []
  · have hnone : used = [] := by simp [used, having_used, hfresh, survivingSamples]
    have hfew : ¬ enough := fun henough => ne_nil_of_enough hmin henough hnone
    rw [if_pos (by rw [hfresh, List.length_nil]), if_neg hfew, if_neg hfew, hfresh]
    rfl
  · rw [if_neg (by simpa using hfresh), median_fresh_eq hfresh, Except.bind_of_ok, ← having_used]
    by_cases henough : enough
    · have hprices : used.map (·.price) ≠ [] := by simpa using ne_nil_of_enough hmin henough
      rw [if_neg (not_lt.mpr henough), median_eq_midpoint hprices, if_pos henough, if_pos henough]
      rfl
    · rw [if_pos (not_le.mp henough), if_neg henough, if_neg henough]
      rfl

/-- Every sample is in the list its standing asks for, no sample is lost or used twice,
and neither the price nor the lists depend on the order of the samples. -/
theorem aggregate_accounts_for_samples (samples : List OraclePriceSample)
    (hmin : 1 ≤ opts.minSources) :
    ∃ result, aggregate samples opts = .ok result ∧
      result.rejectedStale = (having samples opts .stale).map (·.source) ∧
      result.rejectedOutlier = (having samples opts .outlier).map (·.source) ∧
      (result.price = none ↔ ((having samples opts .used).length : Number) < opts.minSources) ∧
      (∀ p, result.price = some p →
        result.usedSources = (having samples opts .used).map (·.source) ∧
        (result.rejectedStale ++ result.rejectedOutlier ++ result.usedSources).Perm
          (samples.map (·.source)) ∧
        opts.minSources ≤ (result.usedSources.length : Number) ∧
        ∃ low ∈ having samples opts .used, ∃ high ∈ having samples opts .used,
          low.price ≤ p ∧ p ≤ high.price) ∧
      ∀ samples', samples'.Perm samples → ∃ result', aggregate samples' opts = .ok result' ∧
        result'.price = result.price ∧ result'.usedSources.Perm result.usedSources ∧
        result'.rejectedStale.Perm result.rejectedStale ∧
        result'.rejectedOutlier.Perm result.rejectedOutlier := by
  refine ⟨_, aggregate_eq samples hmin, rfl, rfl, ?_, ?_, ?_⟩
  · split <;> simp_all
  · intro p hprice
    obtain ⟨henough, hp⟩ := Option.ite_none_right_eq_some.mp hprice
    obtain rfl := Option.some.inj hp
    simp only [if_pos henough, List.length_map]
    refine ⟨trivial, ?_, henough, ?_⟩
    · rw [← List.map_append, ← List.map_append]
      exact (having_partition samples opts).map _
    · have hprices : (having samples opts .used).map (·.price) ≠ [] := by
        simpa using ne_nil_of_enough hmin henough
      obtain ⟨_, hmem, _, hmem', hbounds⟩ := midpoint_between hprices
      obtain ⟨low, hlow, rfl⟩ := List.mem_map.mp hmem
      obtain ⟨high, hhigh, rfl⟩ := List.mem_map.mp hmem'
      exact ⟨low, hlow, high, hhigh, hbounds⟩
  · intro samples' hperm
    have hused := @having_perm _ _ opts hperm .used
    refine ⟨_, aggregate_eq samples' hmin, ?_, ?_, (having_perm hperm _).map _,
      (having_perm hperm _).map _⟩
    · rw [hused.length_eq, midpoint_perm (hused.map _)]
    · rw [hused.length_eq]
      split
      · exact hused.map _
      · exact .nil

/-- Two feeds that agree, one that does not, and one that is late. -/
theorem sample_accounts_for_samples :
    let samples : List OraclePriceSample :=
      [⟨"late", 10, 2⟩, ⟨"first", 10, 7⟩, ⟨"far", 1000, 7⟩, ⟨"second", 11, 7⟩]
    let result : AggregationResult := ⟨some (21 / 2), ["first", "second"], ["late"], ["far"]⟩
    aggregate samples ⟨7, 3, 15, 2⟩ = .ok result ∧
      (result.rejectedStale ++ result.rejectedOutlier ++ result.usedSources).Perm
        (samples.map (·.source)) := by
  intro samples result
  have hresult : aggregate samples ⟨7, 3, 15, 2⟩ = .ok result := by decide +kernel
  obtain ⟨_, hsame, -, -, -, hprice, -⟩ :=
    @aggregate_accounts_for_samples ⟨7, 3, 15, 2⟩ samples (by decide +kernel)
  obtain rfl := Except.ok.inj (hresult.symm.trans hsame)
  exact ⟨hresult, (hprice _ rfl).2.1⟩

end StellarKraal.Aggregation
