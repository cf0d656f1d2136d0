import Mathlib.Algebra.Order.Field.Rat
import Mathlib.Data.List.GetD
import StellarKraal.Foundation.OrderStatistics
import StellarKraal.Foundation.Outcome

/-!
# The off-chain price aggregation

Samples that are too old are dropped, then those too far from the median of the
rest, and the median of what remains is the price. A `number` of the source is a
rational here, so no operation rounds. The same functions with the rounding of
binary64 are in `Aggregation.Rounded`.
-/

namespace StellarKraal.Aggregation

open Except (refuseIf)
open OrderStatistics (Middle kthSmallest)

abbrev Number := ℚ

structure OraclePriceSample where
  source : String
  price : Number
  ledger : Number
  deriving DecidableEq

structure AggregationOptions where
  currentLedger : Number
  maxAgeLedgers : Number
  maxDeviationPct : Number
  minSources : Number

structure AggregationResult where
  price : Option Number
  usedSources : List String
  rejectedStale : List String
  rejectedOutlier : List String
  deriving DecidableEq

/-- `sort` with a numeric comparator puts the values in ascending order. -/
def median (values : List Number) : Except String Number := do
  refuseIf (values.length = 0) "median: values must be non-empty"
  let sorted := values.insertionSort (· ≤ ·)
  let mid := sorted.length / 2
  return if sorted.length % 2 = 0 then (sorted.getD (mid - 1) 0 + sorted.getD mid 0) / 2
    else sorted.getD mid 0

def isOutlier (value referenceMedian maxDeviationPct : Number) : Bool :=
  if referenceMedian = 0 then decide (value ≠ 0)
  else
    let deviationPct := |value - referenceMedian| / |referenceMedian| * 100
    decide (deviationPct > maxDeviationPct)

def isStale (currentLedger sampleLedger maxAgeLedgers : Number) : Bool :=
  decide (currentLedger - sampleLedger > maxAgeLedgers)

/-- The samples that are not stale. -/
def freshSamples (samples : List OraclePriceSample) (opts : AggregationOptions) :
    List OraclePriceSample :=
  samples.filter fun s => !isStale opts.currentLedger s.ledger opts.maxAgeLedgers

/-- The samples close enough to the reference median. -/
def survivingSamples (fresh : List OraclePriceSample) (ref maxDeviationPct : Number) :
    List OraclePriceSample :=
  fresh.filter fun s => !isOutlier s.price ref maxDeviationPct

def aggregate (samples : List OraclePriceSample) (opts : AggregationOptions) :
    Except String AggregationResult := do
  let rejectedStale := (samples.filter fun s =>
    isStale opts.currentLedger s.ledger opts.maxAgeLedgers).map (·.source)
  let fresh := freshSamples samples opts
  if fresh.length = 0 then
    return { price := none, usedSources := [], rejectedStale, rejectedOutlier := [] }
  else
    let ref ← median (fresh.map (·.price))
    let rejectedOutlier := (fresh.filter fun s =>
      isOutlier s.price ref opts.maxDeviationPct).map (·.source)
    let surviving := survivingSamples fresh ref opts.maxDeviationPct
    if (surviving.length : Number) < opts.minSources then
      return { price := none, usedSources := [], rejectedStale, rejectedOutlier }
    else
      let price ← median (surviving.map (·.price))
      return {
        price := some price
        usedSources := surviving.map (·.source)
        rejectedStale
        rejectedOutlier }

/-! ## The median -/

/-- Whatever the parity, the median is the mean of the two middle values. -/
theorem median_of_middle {values : List Number} {low high : Number}
    (h : Middle values low high) : median values = .ok ((low + high) / 2) := by
  obtain ⟨hlow, hlow'⟩ := List.getElem?_eq_some_iff.mp h.low
  obtain ⟨hhigh, hhigh'⟩ := List.getElem?_eq_some_iff.mp h.high
  have hpos : ¬ values.length = 0 := by
    rw [List.length_insertionSort] at hhigh
    omega
  simp only [median, Except.refuseIf_of_not hpos, Except.bind_of_ok, List.length_insertionSort]
  split
  next heven =>
    have hindex : values.length / 2 - 1 = (values.length - 1) / 2 := by omega
    rw [hindex, List.getD_eq_getElem _ _ hlow, List.getD_eq_getElem _ _ hhigh, hlow', hhigh']
    rfl
  next hodd =>
    obtain rfl := h.eq_of_odd (by omega)
    rw [List.getD_eq_getElem _ _ hhigh, hhigh', add_self_div_two]
    rfl

theorem median_ok {values : List Number} {m : Number} (h : median values = .ok m) :
    ∃ low high, Middle values low high ∧ m = (low + high) / 2 := by
  have hne : values ≠ [] := by
    rintro rfl
    simp [median, refuseIf] at h
  obtain ⟨low, high, hmid⟩ := Middle.exists hne
  exact ⟨low, high, hmid, Except.ok.inj (h.symm.trans (median_of_middle hmid))⟩

theorem median_between {values : List Number} {m a b : Number} (h : median values = .ok m)
    (hall : ∀ v ∈ values, a ≤ v ∧ v ≤ b) : a ≤ m ∧ m ≤ b := by
  obtain ⟨low, high, hmid, rfl⟩ := median_ok h
  obtain ⟨⟨hlow, hlow'⟩, hhigh, hhigh'⟩ := hmid.bounds hall
  constructor <;> linarith

/-! ## The pipeline -/

/-- A price comes out of the samples that survive both filters. -/
theorem aggregate_price {samples : List OraclePriceSample} {opts : AggregationOptions}
    {result : AggregationResult} {p : Number} (h : aggregate samples opts = .ok result)
    (hprice : result.price = some p) :
    ∃ ref, median ((freshSamples samples opts).map (·.price)) = .ok ref ∧
      median ((survivingSamples (freshSamples samples opts) ref opts.maxDeviationPct).map
        (·.price)) = .ok p := by
  simp only [aggregate] at h
  split at h
  next =>
    obtain rfl := Except.pure_succeeds.mp h
    contradiction
  next =>
    obtain ⟨ref, href, h⟩ := Except.bind_succeeds.mp h
    split at h
    next =>
      obtain rfl := Except.pure_succeeds.mp h
      contradiction
    next =>
      obtain ⟨price, hmedian, h⟩ := Except.bind_succeeds.mp h
      obtain rfl := Except.pure_succeeds.mp h
      obtain rfl := Option.some.inj hprice
      exact ⟨ref, href, hmedian⟩

end StellarKraal.Aggregation
