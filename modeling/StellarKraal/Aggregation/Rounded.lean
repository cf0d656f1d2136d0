import StellarKraal.Aggregation.OffChain
import StellarKraal.Foundation.FloatingPoint

/-!
# The aggregation in binary64

The functions of the aggregation once more, with what becomes of the result of each
operation as a parameter `fl`. It is `binary64` for the numbers of the source, and the
identity gives the functions over the rationals. The values stay far from the smallest
and the largest number that a binary64 can hold.
-/

namespace StellarKraal.Aggregation.Rounded

open Except (refuseIf)
open FloatingPoint (binary64 Representable)
open OrderStatistics (Middle)

section Arithmetic

variable (fl : ℚ → ℚ)

/-- The comparator's difference has the sign of the exact one. -/
def median (values : List Number) : Except String Number := do
  refuseIf (values.length = 0) "median: values must be non-empty"
  let sorted := values.insertionSort (· ≤ ·)
  let mid := sorted.length / 2
  return if sorted.length % 2 = 0 then fl (fl (sorted.getD (mid - 1) 0 + sorted.getD mid 0) / 2)
    else sorted.getD mid 0

def isOutlier (value referenceMedian maxDeviationPct : Number) : Bool :=
  if referenceMedian = 0 then decide (value ≠ 0)
  else
    let deviationPct := fl (fl (|fl (value - referenceMedian)| / |referenceMedian|) * 100)
    decide (deviationPct > maxDeviationPct)

def isStale (currentLedger sampleLedger maxAgeLedgers : Number) : Bool :=
  decide (fl (currentLedger - sampleLedger) > maxAgeLedgers)

/-- The samples that are not stale. -/
def freshSamples (samples : List OraclePriceSample) (opts : AggregationOptions) :
    List OraclePriceSample :=
  samples.filter fun s => !isStale fl opts.currentLedger s.ledger opts.maxAgeLedgers

/-- The samples close enough to the reference median. -/
def survivingSamples (fresh : List OraclePriceSample) (ref maxDeviationPct : Number) :
    List OraclePriceSample :=
  fresh.filter fun s => !isOutlier fl s.price ref maxDeviationPct

def aggregate (samples : List OraclePriceSample) (opts : AggregationOptions) :
    Except String AggregationResult := do
  let rejectedStale := (samples.filter fun s =>
    isStale fl opts.currentLedger s.ledger opts.maxAgeLedgers).map (·.source)
  let fresh := freshSamples fl samples opts
  if fresh.length = 0 then
    return { price := none, usedSources := [], rejectedStale, rejectedOutlier := [] }
  else
    let ref ← median fl (fresh.map (·.price))
    let rejectedOutlier := (fresh.filter fun s =>
      isOutlier fl s.price ref opts.maxDeviationPct).map (·.source)
    let surviving := survivingSamples fl fresh ref opts.maxDeviationPct
    if (surviving.length : Number) < opts.minSources then
      return { price := none, usedSources := [], rejectedStale, rejectedOutlier }
    else
      let price ← median fl (surviving.map (·.price))
      return {
        price := some price
        usedSources := surviving.map (·.source)
        rejectedStale
        rejectedOutlier }

end Arithmetic

/-- Without rounding it is the aggregation over the rationals. -/
theorem aggregate_id : aggregate id = Aggregation.aggregate := rfl

variable {fl : ℚ → ℚ}

/-! ## The median -/

/-- The mean of the two middle values, as it is computed. -/
def mean (low high : Number) : Number := binary64 (binary64 (low + high) / 2)

/-- Doubling and halving a representable number is exact. -/
theorem mean_self {v : Number} (h : Representable 52 v) : mean v v = v := by
  rw [mean, binary64, h.add_self.round_eq, add_self_div_two, h.round_eq]

theorem mean_between {a b low high : Number} (ha : Representable 52 a) (hb : Representable 52 b)
    (hlow : a ≤ low ∧ low ≤ b) (hhigh : a ≤ high ∧ high ≤ b) :
    a ≤ mean low high ∧ mean low high ≤ b := by
  have hsum : a + a ≤ binary64 (low + high) ∧ binary64 (low + high) ≤ b + b :=
    ⟨FloatingPoint.le_round ha.add_self (by linarith),
      FloatingPoint.round_le hb.add_self (by linarith)⟩
  exact ⟨FloatingPoint.le_round ha (by linarith), FloatingPoint.round_le hb (by linarith)⟩

theorem mean_pos {low high : Number} (hlow : 0 ≤ low) (hhigh : 0 < high) : 0 < mean low high :=
  FloatingPoint.round_pos (half_pos (FloatingPoint.round_pos (by linarith)))

theorem median_of_middle {values : List Number} {low high : Number}
    (h : Middle values low high) (hvalues : ∀ v ∈ values, Representable 52 v) :
    median binary64 values = .ok (mean low high) := by
  obtain ⟨hlow, hlow'⟩ := List.getElem?_eq_some_iff.mp h.low
  obtain ⟨hhigh, hhigh'⟩ := List.getElem?_eq_some_iff.mp h.high
  have hpos : ¬ values.length = 0 := by
    rw [List.length_insertionSort] at hhigh
    omega
  simp only [median, Except.refuseIf_of_not hpos, Except.bind_of_ok, List.length_insertionSort]
  split
  next heven =>
    have hindex : values.length / 2 - 1 = (values.length - 1) / 2 := by omega
    rw [hindex, List.getD_eq_getElem _ _ hlow, List.getD_eq_getElem _ _ hhigh, hlow', hhigh']
    rfl
  next hodd =>
    obtain rfl := h.eq_of_odd (by omega)
    rw [List.getD_eq_getElem _ _ hhigh, hhigh',
      mean_self (hvalues _ (OrderStatistics.kthSmallest_mem h.low))]
    rfl

theorem median_succeeds (fl : ℚ → ℚ) {values : List Number} (hne : values ≠ []) :
    ∃ m, median fl values = .ok m := by
  have hpos : ¬ values.length = 0 := by simpa using hne
  rw [median, Except.refuseIf_of_not hpos]
  exact ⟨_, rfl⟩

/-! ## The pipeline -/

theorem survivingSamples_eq_self {fresh : List OraclePriceSample} {ref d : Number}
    (h : ∀ s ∈ fresh, isOutlier fl s.price ref d = false) :
    survivingSamples fl fresh ref d = fresh :=
  List.filter_eq_self.mpr fun s hs => by simp [h s hs]

/-- With one source required, the aggregation answers on any samples. If it rejects
no outlier, its price is the median of the fresh ones. -/
theorem aggregate_answers (fl : ℚ → ℚ) (samples : List OraclePriceSample)
    (opts : AggregationOptions) (hsources : opts.minSources = 1) :
    ∃ result, aggregate fl samples opts = .ok result ∧
      (freshSamples fl samples opts = [] → result.price = none) ∧
      ∀ ref, median fl ((freshSamples fl samples opts).map (·.price)) = .ok ref →
        (result.rejectedOutlier = [] ↔
          ∀ s ∈ freshSamples fl samples opts,
            isOutlier fl s.price ref opts.maxDeviationPct = false) ∧
        (result.rejectedOutlier = [] → result.price = some ref) := by
  unfold aggregate
  by_cases hempty : freshSamples fl samples opts = []
  · refine ⟨_, if_pos (by simp [hempty]), fun _ => rfl, fun ref href => ?_⟩
    rw [hempty] at href
    simp [median, refuseIf] at href
  · have hpos : 0 < (freshSamples fl samples opts).length := List.length_pos_of_ne_nil hempty
    have hprices : (freshSamples fl samples opts).map (·.price) ≠ [] := by simpa using hempty
    obtain ⟨ref, href⟩ := median_succeeds fl hprices
    simp only [hpos.ne', if_false, href, Except.bind_of_ok, hsources]
    -- Nothing rejected means that all fresh samples survive.
    have hrejected : ∀ fresh : List OraclePriceSample,
        (fresh.filter fun s => isOutlier fl s.price ref opts.maxDeviationPct).map (·.source) = [] ↔
          ∀ s ∈ fresh, isOutlier fl s.price ref opts.maxDeviationPct = false := by
      intro fresh
      rw [List.map_eq_nil_iff, List.filter_eq_nil_iff]
      simp
    split
    next hfew =>
      refine ⟨_, rfl, fun h => absurd h hempty, ?_⟩
      rintro _ hsame
      obtain rfl := Except.ok.inj hsame
      refine ⟨hrejected _, fun hnone => ?_⟩
      rw [survivingSamples_eq_self ((hrejected _).mp hnone)] at hfew
      exact absurd hfew (not_lt.mpr (by exact_mod_cast hpos))
    next henough =>
      have hsurviving : (survivingSamples fl (freshSamples fl samples opts) ref
          opts.maxDeviationPct).map (·.price) ≠ [] := by
        intro hnone
        simp [List.map_eq_nil_iff.mp hnone] at henough
      obtain ⟨price, hprice⟩ := median_succeeds fl hsurviving
      refine ⟨_, by rw [hprice]; rfl, fun h => absurd h hempty, ?_⟩
      rintro _ hsame
      obtain rfl := Except.ok.inj hsame
      refine ⟨hrejected _, fun hnone => ?_⟩
      rw [survivingSamples_eq_self ((hrejected _).mp hnone), href] at hprice
      exact congrArg some (Except.ok.inj hprice).symm

end StellarKraal.Aggregation.Rounded
