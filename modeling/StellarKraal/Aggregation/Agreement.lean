import Mathlib.Data.Finset.Order
import StellarKraal.Aggregation.Rounded
import StellarKraal.CarbonOracle.Median

/-!
# The off-chain price and the on-chain median

Both take the median of the submissions that are not too old. The contract also
asks that a submission is not from a later ledger than the current one; the
off-chain age is a difference of numbers, negative for such a submission, and
never too large. The contract adds the two middle prices as integers, and the
aggregation in binary64.
-/

namespace StellarKraal.Aggregation.Rounded

open CarbonOracle (State Settings getMedianPrice validPrices freshPrice)
open FloatingPoint (binary64 Representable)
open OrderStatistics (Middle)

variable {w : State} {s : Settings}

/-! ## The samples of a deployment -/

/-- `Number(price)` of an integer. -/
def toNumber (price : Nat) : Number := binary64 price

theorem toNumber_mono : Monotone toNumber := fun _ _ hle =>
  FloatingPoint.round_mono 52 (Nat.cast_le.mpr hle)

theorem toNumber_eq {price : Nat} (h : price ≤ 2 ^ 53) : toNumber price = price :=
  FloatingPoint.round_natCast h

theorem toNumber_representable (price : Nat) : Representable 52 (toNumber price) :=
  FloatingPoint.round_representable 52 _

def sampleOf (name : Address → String) (w : State) (oracle : Address) :
    Option OraclePriceSample :=
  (w.prices.lookup oracle).map fun v => ⟨name oracle, toNumber v.1, v.2⟩

/-- The submissions of the registered oracles, as the aggregation sees them. -/
def samplesOf (name : Address → String) (w : State) (s : Settings) : List OraclePriceSample :=
  s.oracles.filterMap (sampleOf name w)

def optionsOf (w : State) (s : Settings) (maxDeviationPct : Number) : AggregationOptions :=
  ⟨w.sequence, s.maxAgeLedgers, maxDeviationPct, 1⟩

/-- The ledger numbers are `u32`s. -/
structure LedgersFit (w : State) : Prop where
  sequence : w.sequence ≤ U32.MAX
  submissions : ∀ oracle v, w.prices.lookup oracle = some v → v.2 ≤ U32.MAX

/-- Off chain a submission counts unless it is too old. -/
def offChainPrice (w : State) (maxAge : Nat) (oracle : Address) : Option Nat :=
  match w.prices.lookup oracle with
  | some (price, ledgerSeq) => if w.sequence ≤ ledgerSeq + maxAge then some price else none
  | none => none

theorem isStale_natCast {current ledgerSeq : Nat} (hcurrent : current ≤ U32.MAX)
    (hledger : ledgerSeq ≤ U32.MAX) (maxAge : Nat) :
    isStale binary64 current ledgerSeq maxAge = decide (¬ current ≤ ledgerSeq + maxAge) := by
  have hexact : binary64 ((current : Number) - ledgerSeq) = current - ledgerSeq := by
    refine Representable.round_eq ⟨(current : Int) - ledgerSeq, 0, ?_, by simp⟩
    unfold U32.MAX at hcurrent hledger
    rw [abs_le]
    omega
  unfold isStale
  congr 1
  rw [hexact, gt_iff_lt, lt_sub_iff_add_lt, not_le, ← Nat.cast_add, Nat.cast_lt, Nat.add_comm]

theorem fresh_prices (name : Address → String) (hledgers : LedgersFit w) (s : Settings)
    (d : Number) :
    (freshSamples binary64 (samplesOf name w s) (optionsOf w s d)).map (·.price) =
      (s.oracles.filterMap (offChainPrice w s.maxAgeLedgers)).map toNumber := by
  rw [freshSamples, samplesOf, List.filter_filterMap, List.map_filterMap, List.map_filterMap]
  congr 1
  funext oracle
  simp only [sampleOf, offChainPrice, optionsOf]
  cases hstored : w.prices.lookup oracle with
  | none => rfl
  | some v =>
      have hstale := isStale_natCast hledgers.sequence (hledgers.submissions oracle v hstored)
        s.maxAgeLedgers
      simp only [Option.map_some, Option.filter, hstale]
      by_cases h : w.sequence ≤ v.2 + s.maxAgeLedgers <;> simp [h]

/-- The middle of the prices that count off chain gives the off-chain median. -/
theorem median_fresh (name : Address → String) (hledgers : LedgersFit w) (d : Number)
    {low high : Nat}
    (h : Middle (s.oracles.filterMap (offChainPrice w s.maxAgeLedgers)) low high) :
    median binary64
      ((freshSamples binary64 (samplesOf name w s) (optionsOf w s d)).map (·.price)) =
        .ok (mean (toNumber low) (toNumber high)) := by
  rw [fresh_prices name hledgers]
  refine median_of_middle (h.map toNumber_mono) fun v hv => ?_
  obtain ⟨price, -, rfl⟩ := List.mem_map.mp hv
  exact toNumber_representable price

/-! ## Agreement -/

/-- Whatever the deviation for which no sample is rejected as an outlier: there is no
price exactly if the contract finds no valid submission, and otherwise the price
rounded down is the contract's median. -/
def Agree (name : Address → String) (w : State) (s : Settings) : Prop :=
  ∀ d, ∃ result, aggregate binary64 (samplesOf name w s) (optionsOf w s d) = .ok result ∧
    (result.rejectedOutlier = [] →
      (result.price = none ↔
        getMedianPrice w = .error (.message "no valid oracle submissions")) ∧
      ∀ p, result.price = some p → ∃ m : Nat, getMedianPrice w = .ok m ∧ ⌊p⌋ = m)

theorem Agree.floor_eq {name : Address → String} (h : Agree name w s) {d p : Number} {m : Nat}
    {result : AggregationResult}
    (hresult : aggregate binary64 (samplesOf name w s) (optionsOf w s d) = .ok result)
    (hrejected : result.rejectedOutlier = []) (hprice : result.price = some p)
    (hm : getMedianPrice w = .ok m) : ⌊p⌋ = m := by
  obtain ⟨result', hresult', hagree⟩ := h d
  obtain rfl := Except.ok.inj (hresult.symm.trans hresult')
  obtain ⟨m', hm', hfloor⟩ := (hagree hrejected).2 p hprice
  rw [hfloor, Except.ok.inj (hm.symm.trans hm')]

/-- No registered oracle's submission is from a later ledger. -/
def NoneAhead (w : State) (s : Settings) : Prop :=
  ∀ oracle ∈ s.oracles, ∀ v, w.prices.lookup oracle = some v → v.2 ≤ w.sequence

/-- No price is above `bound`. -/
def PricesUpTo (bound : Nat) (w : State) : Prop :=
  ∀ oracle v, w.prices.lookup oracle = some v → v.1 ≤ bound

/-- The mean of the two middle prices is the same in binary64 as in integers. -/
def MeanKept (w : State) (s : Settings) : Prop :=
  ∀ low high, Middle (validPrices w s) low high →
    ⌊mean (toNumber low) (toNumber high)⌋ = ((low + high) / 2 : Nat)

/-- Up to this price no mean of so many submissions is off. An odd number of them has one
in the middle, which is only converted. -/
def exactBound (submissions : Nat) : Nat := if submissions % 2 = 0 then 2 ^ 52 + 1 else 2 ^ 53

theorem offChainPrice_eq (h : NoneAhead w s) :
    s.oracles.filterMap (offChainPrice w s.maxAgeLedgers) = validPrices w s := by
  refine List.filterMap_congr fun oracle hmem => ?_
  unfold offChainPrice freshPrice
  cases hstored : w.prices.lookup oracle with
  | none => rfl
  | some v =>
      have hle := h oracle hmem v hstored
      have hage : w.sequence ≤ v.2 + s.maxAgeLedgers ↔
          w.sequence ≥ v.2 ∧ w.sequence - v.2 ≤ s.maxAgeLedgers := by omega
      simp only [hage]

theorem floor_half (sum : Nat) : ⌊(sum : Number) / 2⌋ = (sum / 2 : Nat) := by
  have hcast : (sum : Number) / 2 = (sum : Number) / (2 : Nat) := rfl
  rw [hcast, Rat.floor_natCast_div_natCast]
  exact (Int.natCast_ediv _ 2).symm

theorem floor_binary64_half {sum : Nat} (h : sum ≤ 2 ^ 53) :
    ⌊binary64 ((sum : Number) / 2)⌋ = (sum / 2 : Nat) := by
  rw [binary64, (Representable.natCast h).half.round_eq, floor_half]

/-- The sum of two such prices is exact, or one more than a power of two and rounded to
it. -/
theorem floor_mean {low high : Nat} (hlow : low ≤ 2 ^ 52 + 1) (hhigh : high ≤ 2 ^ 52 + 1) :
    ⌊mean (toNumber low) (toNumber high)⌋ = ((low + high) / 2 : Nat) := by
  rw [mean, toNumber_eq (by omega), toNumber_eq (by omega), ← Nat.cast_add]
  rcases Nat.lt_or_ge (2 ^ 53) (low + high) with hlarge | hsmall
  · have hsum : low + high = 2 ^ 53 + 1 ∨ low + high = 2 ^ 53 + 2 := by omega
    rcases hsum with hsum | hsum
    · rw [hsum]
      decide +kernel
    · rw [hsum]
      decide +kernel
  · rw [binary64, FloatingPoint.round_natCast hsmall]
    exact floor_binary64_half hsmall

theorem validPrice_le {bound : Nat} (hbound : PricesUpTo bound w) {price : Nat}
    (h : price ∈ validPrices w s) : price ≤ bound := by
  obtain ⟨oracle, -, hfresh⟩ := List.mem_filterMap.mp h
  unfold freshPrice at hfresh
  split at hfresh
  next stored ledgerSeq hstored =>
    obtain ⟨-, hprice⟩ := Option.ite_none_right_eq_some.mp hfresh
    exact Option.some.inj hprice ▸ hbound oracle _ hstored
  next => contradiction

theorem meanKept_of_bound (hbound : PricesUpTo (exactBound (validPrices w s).length) w) :
    MeanKept w s := by
  intro low high hmid
  have hlow := validPrice_le hbound (OrderStatistics.kthSmallest_mem hmid.low)
  have hhigh := validPrice_le hbound (OrderStatistics.kthSmallest_mem hmid.high)
  rw [exactBound] at hlow hhigh
  split at hlow
  next heven =>
    rw [if_pos heven] at hhigh
    exact floor_mean hlow hhigh
  next hodd =>
    obtain rfl := hmid.eq_of_odd (by omega)
    rw [mean_self (toNumber_representable low), toNumber_eq hlow, Int.floor_natCast]
    omega

/-- What the two medians are where none is ahead. -/
theorem medians_of_noneAhead (name : Address → String) (hs : w.settings = some s)
    (hfew : s.oracles.length ≤ 20) (hledgers : LedgersFit w) (hfit : PricesUpTo (2 ^ 63 - 1) w)
    (hnone : NoneAhead w s) (d : Number) {low high : Nat}
    (hmid : Middle (validPrices w s) low high) :
    median binary64
        ((freshSamples binary64 (samplesOf name w s) (optionsOf w s d)).map (·.price)) =
          .ok (mean (toNumber low) (toNumber high)) ∧
      getMedianPrice w = .ok ((low + high) / 2) := by
  have hlow := validPrice_le hfit (OrderStatistics.kthSmallest_mem hmid.low)
  have hhigh := validPrice_le hfit (OrderStatistics.kthSmallest_mem hmid.high)
  have hsum : low + high ≤ U64.MAX := by
    unfold U64.MAX
    omega
  have hlength : (validPrices w s).length ≤ 20 := (List.length_filterMap_le _ _).trans hfew
  refine ⟨median_fresh name hledgers d ((offChainPrice_eq hnone).symm ▸ hmid), ?_⟩
  rw [CarbonOracle.getMedianPrice_eq hs hlength hmid, if_pos (.inr hsum)]

theorem agree_of_meanKept (name : Address → String) (hs : w.settings = some s)
    (hfew : s.oracles.length ≤ 20) (hledgers : LedgersFit w) (hfit : PricesUpTo (2 ^ 63 - 1) w)
    (hnone : NoneAhead w s) (hkept : MeanKept w s) : Agree name w s := by
  intro d
  obtain ⟨result, hresult, hempty, hprice⟩ :=
    aggregate_answers binary64 (samplesOf name w s) (optionsOf w s d) rfl
  refine ⟨result, hresult, fun hrejected => ?_⟩
  by_cases hvalid : validPrices w s = []
  · have hfresh := fresh_prices name hledgers s d
    rw [offChainPrice_eq hnone, hvalid, List.map_nil, List.map_eq_nil_iff] at hfresh
    rw [hempty hfresh, CarbonOracle.getMedianPrice_empty hs hvalid]
    simp
  · obtain ⟨low, high, hmid⟩ := Middle.exists hvalid
    obtain ⟨hoff, hon⟩ := medians_of_noneAhead name hs hfew hledgers hfit hnone d hmid
    rw [(hprice _ hoff).2 hrejected, hon]
    refine ⟨by simp, ?_⟩
    rintro _ hp
    obtain rfl := Option.some.inj hp
    exact ⟨_, rfl, hkept low high hmid⟩

/-- Some deviation is large enough for all of them, unless the reference is zero. -/
theorem exists_not_isOutlier (samples : List OraclePriceSample) {ref : Number} (href : ref ≠ 0) :
    ∃ d, ∀ sample ∈ samples, isOutlier binary64 sample.price ref d = false := by
  obtain ⟨d, hd⟩ := (samples.map fun sample =>
    binary64 (binary64 (|binary64 (sample.price - ref)| / |ref|) * 100)).toFinset.exists_le
  refine ⟨d, fun sample hmem => ?_⟩
  have hle := hd _ (List.mem_toFinset.mpr (List.mem_map_of_mem hmem))
  rw [isOutlier, if_neg href]
  simpa using hle

theorem Agree.meanKept {name : Address → String} (h : Agree name w s) (hs : w.settings = some s)
    (hfew : s.oracles.length ≤ 20) (hledgers : LedgersFit w) (hfit : PricesUpTo (2 ^ 63 - 1) w)
    (hnone : NoneAhead w s) : MeanKept w s := by
  intro low high hmid
  rcases Nat.eq_zero_or_pos high with rfl | hpos
  · obtain rfl := Nat.le_zero.mp hmid.le
    decide +kernel
  · have hmean : 0 < mean (toNumber low) (toNumber high) :=
      mean_pos (FloatingPoint.round_nonneg (Nat.cast_nonneg low))
        (FloatingPoint.round_pos (Nat.cast_pos.mpr hpos))
    obtain ⟨d, hd⟩ := exists_not_isOutlier
      (freshSamples binary64 (samplesOf name w s) (optionsOf w s 0)) hmean.ne'
    obtain ⟨hoff, hon⟩ := medians_of_noneAhead name hs hfew hledgers hfit hnone d hmid
    obtain ⟨result, hresult, -, hprice⟩ :=
      aggregate_answers binary64 (samplesOf name w s) (optionsOf w s d) rfl
    obtain ⟨hrejected, hsome⟩ := hprice _ hoff
    have hempty := hrejected.mpr hd
    exact h.floor_eq hresult hempty (hsome hempty) hon

/-! ## A submission from a later ledger

The contract passes over it and the aggregation does not. Among prices of 1 and 3
that are balanced without it, its own price decides where the middle is. -/

/-- The same submissions with other prices. -/
def reprice (w : State) (price : Address → Nat) : State :=
  { w with prices := w.prices.mapValues fun oracle v => (price oracle, v.2) }

@[simp] theorem lookup_reprice (w : State) (price : Address → Nat) (oracle : Address) :
    (reprice w price).prices.lookup oracle =
      (w.prices.lookup oracle).map fun v => (price oracle, v.2) :=
  KeyedStore.lookup_mapValues _ _ _

/-- The registered oracles that count off chain. -/
def seen (w : State) (s : Settings) : List Address :=
  s.oracles.filter fun oracle => (offChainPrice w s.maxAgeLedgers oracle).isSome

theorem offChainPrice_reprice (w : State) (s : Settings) (price : Address → Nat) :
    s.oracles.filterMap (offChainPrice (reprice w price) s.maxAgeLedgers) =
      (seen w s).map price := by
  rw [seen, ← List.filterMap_eq_map, List.filterMap_filter]
  refine List.filterMap_congr fun oracle _ => ?_
  unfold offChainPrice
  rw [lookup_reprice]
  cases w.prices.lookup oracle with
  | none => rfl
  | some v =>
      simp only [Option.map_some]
      by_cases h : w.sequence ≤ v.2 + s.maxAgeLedgers <;> simp [reprice, h]

/-- 1 for the first half of the others, 3 for the rest of them, `x` for `pivot`. -/
def balanced (oracles : List Address) (pivot : Address) (x : Nat) (oracle : Address) : Nat :=
  if oracle = pivot then x
  else if oracle ∈ (oracles.erase pivot).take (oracles.length / 2) then 1
  else 3

variable {oracles : List Address} {pivot : Address} {x : Nat}

theorem balanced_perm (hmem : pivot ∈ oracles) :
    (pivot :: ((oracles.erase pivot).take (oracles.length / 2) ++
      (oracles.erase pivot).drop (oracles.length / 2))).Perm oracles := by
  rw [List.take_append_drop]
  exact (List.perm_cons_erase hmem).symm

theorem balanced_bounds (hx : 1 ≤ x ∧ x ≤ 3) (oracle : Address) :
    1 ≤ balanced oracles pivot x oracle ∧ balanced oracles pivot x oracle ≤ 3 := by
  unfold balanced
  split_ifs <;> omega

theorem one_le_of_balanced (hx : 1 ≤ x ∧ x ≤ 3) {low high : Nat}
    (h : Middle (oracles.map (balanced oracles pivot x)) low high) : 1 ≤ low := by
  have hall : ∀ y ∈ oracles.map (balanced oracles pivot x), 1 ≤ y ∧ y ≤ 3 := by
    intro y hy
    obtain ⟨a, -, rfl⟩ := List.mem_map.mp hy
    exact balanced_bounds hx a
  exact (h.bounds hall).1.1

theorem balanced_half (hnodup : oracles.Nodup) (pivot : Address) :
    balanced oracles pivot x pivot = x ∧
      (∀ a ∈ (oracles.erase pivot).take (oracles.length / 2), balanced oracles pivot x a = 1) ∧
      ∀ a ∈ (oracles.erase pivot).drop (oracles.length / 2), balanced oracles pivot x a = 3 := by
  have hpivot : ∀ a ∈ oracles.erase pivot, a ≠ pivot := fun a ha =>
    (hnodup.mem_erase_iff.mp ha).1
  have hsplit : ((oracles.erase pivot).take (oracles.length / 2)).Disjoint
      ((oracles.erase pivot).drop (oracles.length / 2)) := by
    apply List.disjoint_of_nodup_append
    rw [List.take_append_drop]
    exact hnodup.erase pivot
  refine ⟨if_pos rfl, fun a ha => ?_, fun a ha => ?_⟩
  · rw [balanced, if_neg (hpivot a (List.mem_of_mem_take ha)), if_pos ha]
  · rw [balanced, if_neg (hpivot a (List.mem_of_mem_drop ha)), if_neg fun h => hsplit h ha]

/-- Counting the assigned prices half by half. -/
theorem countP_balanced (hmem : pivot ∈ oracles) (q : Nat → Bool) :
    (oracles.map (balanced oracles pivot x)).countP q =
      ([pivot].map (balanced oracles pivot x)).countP q +
      (((oracles.erase pivot).take (oracles.length / 2)).map
        (balanced oracles pivot x)).countP q +
      (((oracles.erase pivot).drop (oracles.length / 2)).map
        (balanced oracles pivot x)).countP q := by
  rw [← ((balanced_perm hmem).map _).countP_eq, ← List.singleton_append, List.map_append,
    List.map_append, List.countP_append, List.countP_append, Nat.add_assoc]

/-- With 1 at the pivot the middle is 1. -/
theorem middle_low (hnodup : oracles.Nodup) (hmem : pivot ∈ oracles) {low high : Nat}
    (h : Middle (oracles.map (balanced oracles pivot 1)) low high) : low = 1 ∧ high = 1 := by
  obtain ⟨hpivot, htake, -⟩ := balanced_half (x := 1) hnodup pivot
  have hpos := List.length_pos_of_mem hmem
  have hfew : (oracles.map (balanced oracles pivot 1)).countP (fun y => decide (1 < y)) +
      (oracles.map (balanced oracles pivot 1)).length / 2 <
        (oracles.map (balanced oracles pivot 1)).length := by
    rw [countP_balanced hmem, List.length_map]
    have hlows : (((oracles.erase pivot).take (oracles.length / 2)).map
        (balanced oracles pivot 1)).countP (fun y => decide (1 < y)) = 0 := by
      rw [List.countP_map, List.countP_eq_zero]
      intro a ha
      simp [htake a ha]
    have hrest := List.countP_le_length (p := fun y => decide (1 < y))
      (l := ((oracles.erase pivot).drop (oracles.length / 2)).map (balanced oracles pivot 1))
    rw [List.length_map, List.length_drop, List.length_erase_of_mem hmem] at hrest
    rw [hlows, List.map_singleton, hpivot]
    simp only [List.countP_singleton, lt_irrefl, decide_false, Bool.false_eq_true, if_false]
    omega
  have hhigh := OrderStatistics.kthSmallest_le h.high hfew
  have hlow := one_le_of_balanced (by omega) h
  have hle := h.le
  omega

/-- With 3 at the pivot the upper middle is 3. -/
theorem middle_high (hnodup : oracles.Nodup) (hmem : pivot ∈ oracles) {low high : Nat}
    (h : Middle (oracles.map (balanced oracles pivot 3)) low high) : 1 ≤ low ∧ 3 ≤ high := by
  obtain ⟨hpivot, -, hdrop⟩ := balanced_half (x := 3) hnodup pivot
  have hfew : (oracles.map (balanced oracles pivot 3)).countP (fun y => decide (y < 3)) ≤
      (oracles.map (balanced oracles pivot 3)).length / 2 := by
    rw [countP_balanced hmem, List.length_map]
    have hhighs : (((oracles.erase pivot).drop (oracles.length / 2)).map
        (balanced oracles pivot 3)).countP (fun y => decide (y < 3)) = 0 := by
      rw [List.countP_map, List.countP_eq_zero]
      intro a ha
      simp [hdrop a ha]
    have hrest := List.countP_le_length (p := fun y => decide (y < 3))
      (l := ((oracles.erase pivot).take (oracles.length / 2)).map (balanced oracles pivot 3))
    rw [List.length_map, List.length_take] at hrest
    rw [hhighs, List.map_singleton, hpivot]
    simp only [List.countP_singleton, lt_irrefl, decide_false, Bool.false_eq_true, if_false]
    omega
  exact ⟨one_le_of_balanced (by omega) h, OrderStatistics.le_kthSmallest h.high hfew⟩

theorem not_isOutlier {value ref : Number} (hvalue : 1 ≤ value ∧ value ≤ 3)
    (href : 1 ≤ ref ∧ ref ≤ 3) : isOutlier binary64 value ref 200 = false := by
  have hpos : 0 < ref := by linarith
  have hnat : ∀ n : Nat, n ≤ 200 → Representable 52 (n : ℚ) := fun n hn =>
    Representable.natCast (by omega)
  have hdifference : |binary64 (value - ref)| ≤ 2 :=
    FloatingPoint.abs_round_le (hnat 2 (by omega)) (abs_le.mpr ⟨by linarith, by linarith⟩)
  have hquotient : binary64 (|binary64 (value - ref)| / |ref|) ≤ 2 := by
    refine FloatingPoint.round_le (hnat 2 (by omega)) ?_
    rw [abs_of_pos hpos, div_le_iff₀ hpos]
    linarith
  have hpercent : binary64 (binary64 (|binary64 (value - ref)| / |ref|) * 100) ≤ 200 := by
    refine FloatingPoint.round_le (hnat 200 le_rfl) ?_
    linarith
  rw [isOutlier, if_neg hpos.ne']
  simpa using hpercent

/-- On prices from 1 to 3, agreement makes the off-chain median the contract's. -/
theorem Agree.median {name : Address → String} (h : Agree name w s) (hledgers : LedgersFit w)
    {low high : Nat}
    (hmid : Middle (s.oracles.filterMap (offChainPrice w s.maxAgeLedgers)) low high)
    (hall : ∀ p ∈ s.oracles.filterMap (offChainPrice w s.maxAgeLedgers), 1 ≤ p ∧ p ≤ 3) :
    getMedianPrice w = .ok ((low + high) / 2) := by
  obtain ⟨result, hresult, hagree⟩ := h 200
  obtain ⟨result', hresult', -, hprice⟩ :=
    aggregate_answers binary64 (samplesOf name w s) (optionsOf w s 200) rfl
  obtain rfl := Except.ok.inj (hresult.symm.trans hresult')
  have hfresh := fresh_prices name hledgers s 200
  have hcast : ∀ p : Nat, 1 ≤ p ∧ p ≤ 3 → (1 : Number) ≤ toNumber p ∧ toNumber p ≤ 3 := by
    intro p hp
    rw [toNumber_eq (by omega)]
    exact_mod_cast hp
  obtain ⟨hlow, hhigh⟩ := hmid.bounds hall
  obtain ⟨hrejected, hsome⟩ := hprice _ (median_fresh name hledgers 200 hmid)
  have hnone : result.rejectedOutlier = [] := by
    refine hrejected.mpr fun sample hsample => not_isOutlier ?_ ?_
    · have hmem := List.mem_map_of_mem (f := (·.price)) hsample
      rw [hfresh] at hmem
      obtain ⟨p, hp, heq⟩ := List.mem_map.mp hmem
      exact heq ▸ hcast p (hall p hp)
    · exact mean_between (by simpa using Representable.natCast (n := 1) (by omega))
        (Representable.natCast (n := 3) (by omega)) (hcast low hlow) (hcast high hhigh)
  obtain ⟨m, hm, hfloor⟩ := (hagree hnone).2 _ (hsome hnone)
  rw [floor_mean (by omega) (by omega)] at hfloor
  rw [hm, Int.ofNat_inj.mp hfloor]

/-- The contract's median is the same at both prices of a pivot from a later ledger. -/
theorem getMedianPrice_balanced (hs : w.settings = some s) {v : Nat × Nat}
    (hv : w.prices.lookup pivot = some v) (hahead : w.sequence < v.2) (x y : Nat) :
    getMedianPrice (reprice w (balanced oracles pivot x)) =
      getMedianPrice (reprice w (balanced oracles pivot y)) := by
  have hsame : validPrices (reprice w (balanced oracles pivot x)) s =
      validPrices (reprice w (balanced oracles pivot y)) s := by
    refine List.filterMap_congr fun oracle _ => ?_
    unfold freshPrice
    rw [lookup_reprice, lookup_reprice]
    by_cases hpivot : oracle = pivot
    · subst hpivot
      have hlate : ¬ v.2 ≤ w.sequence := by omega
      simp [hv, reprice, hlate]
    · simp [balanced, hpivot, reprice]
  have hsettings : ∀ price, (reprice w price).settings = some s := fun _ => hs
  simp only [getMedianPrice, hsettings, hsame, Except.okOr_some, Except.bind_of_ok]

/-- The same deployment with the same submissions at other prices. -/
structure SameLedgers (w w' : State) : Prop where
  sequence : w'.sequence = w.sequence
  settings : w'.settings = w.settings
  ledgers : ∀ oracle, (w'.prices.lookup oracle).map (·.2) = (w.prices.lookup oracle).map (·.2)

theorem SameLedgers.noneAhead {w' : State} (h : SameLedgers w w') (hnone : NoneAhead w s) :
    NoneAhead w' s := by
  intro oracle hmem v' hv'
  have hledger := h.ledgers oracle
  rw [hv', Option.map_some] at hledger
  obtain ⟨v, hv, heq⟩ := Option.map_eq_some_iff.mp hledger.symm
  rw [h.sequence, ← heq]
  exact hnone oracle hmem v hv

theorem SameLedgers.of_reprice (w : State) (price : Address → Nat) :
    SameLedgers w (reprice w price) := by
  refine ⟨rfl, rfl, fun oracle => ?_⟩
  rw [lookup_reprice, Option.map_map]
  rfl

theorem SameLedgers.ledgersFit {w' : State} (h : SameLedgers w w') (hfit : LedgersFit w) :
    LedgersFit w' where
  sequence := h.sequence ▸ hfit.sequence
  submissions oracle v' hv' := by
    have hledger := h.ledgers oracle
    rw [hv', Option.map_some] at hledger
    obtain ⟨v, hv, heq⟩ := Option.map_eq_some_iff.mp hledger.symm
    exact heq ▸ hfit.submissions oracle v hv

/-- The same submissions are valid, whatever their prices. -/
theorem SameLedgers.validPrices_length {w' : State} (h : SameLedgers w w') :
    (validPrices w' s).length = (validPrices w s).length := by
  rw [validPrices, validPrices, List.length_filterMap_eq_countP, List.length_filterMap_eq_countP]
  refine List.countP_congr fun oracle _ => ?_
  have hledger := h.ledgers oracle
  unfold freshPrice
  rw [h.sequence]
  cases hv : w.prices.lookup oracle with
  | none =>
      rw [hv, Option.map_none, Option.map_eq_none_iff] at hledger
      rw [hledger]
  | some v =>
      rw [hv, Option.map_some] at hledger
      obtain ⟨v', hv', heq⟩ := Option.map_eq_some_iff.mp hledger
      simp only [hv', heq]
      split <;> rfl

theorem pricesUpTo_reprice (w : State) {price : Address → Nat} {bound : Nat}
    (h : ∀ a, price a ≤ bound) : PricesUpTo bound (reprice w price) := by
  intro oracle v hv
  rw [lookup_reprice] at hv
  obtain ⟨_, -, rfl⟩ := Option.map_eq_some_iff.mp hv
  exact h oracle

theorem PricesUpTo.mono {bound bound' : Nat} (h : PricesUpTo bound w) (hle : bound ≤ bound') :
    PricesUpTo bound' w := fun oracle v hv => (h oracle v hv).trans hle

/-- If the two agree at all prices up to a bound, the contract's median of balanced prices is
the middle of those that count off chain. -/
theorem median_of_balanced {name : Address → String} {bound : Nat} (hbound : 3 ≤ bound)
    (hledgers : LedgersFit w)
    (hagree : ∀ w', SameLedgers w w' → PricesUpTo bound w' → Agree name w' s)
    (hseen : pivot ∈ seen w s) (hx : 1 ≤ x ∧ x ≤ 3) :
    ∃ low high, Middle ((seen w s).map (balanced (seen w s) pivot x)) low high ∧
      getMedianPrice (reprice w (balanced (seen w s) pivot x)) = .ok ((low + high) / 2) := by
  have hne : (seen w s).map (balanced (seen w s) pivot x) ≠ [] := by
    simpa using List.ne_nil_of_mem hseen
  obtain ⟨low, high, hmid⟩ := Middle.exists hne
  have hsame := SameLedgers.of_reprice w (balanced (seen w s) pivot x)
  have hfit : PricesUpTo bound (reprice w (balanced (seen w s) pivot x)) :=
    pricesUpTo_reprice w fun a => (balanced_bounds hx a).2.trans hbound
  refine ⟨low, high, hmid, (hagree _ hsame hfit).median (hsame.ledgersFit hledgers) ?_ ?_⟩
  · rw [offChainPrice_reprice]
    exact hmid
  · rw [offChainPrice_reprice]
    intro p hp
    obtain ⟨a, -, rfl⟩ := List.mem_map.mp hp
    exact balanced_bounds hx a

/-- Agreement at all prices from 0 to 3 leaves no submission of a later ledger. -/
theorem noneAhead_of_agree {name : Address → String} {bound : Nat} (hbound : 3 ≤ bound)
    (hs : w.settings = some s) (hnodup : s.oracles.Nodup) (hledgers : LedgersFit w)
    (hagree : ∀ w', SameLedgers w w' → PricesUpTo bound w' → Agree name w' s) :
    NoneAhead w s := by
  intro oracle hmem v hv
  by_contra hlate
  rw [not_le] at hlate
  have hseen : oracle ∈ seen w s := by
    refine List.mem_filter.mpr ⟨hmem, ?_⟩
    have hyoung : w.sequence ≤ v.2 + s.maxAgeLedgers := by omega
    simp [offChainPrice, hv, hyoung]
  have hdistinct : (seen w s).Nodup := hnodup.filter _
  -- The two assignments give the contract the same median and the aggregation another.
  obtain ⟨low, high, hmid, hlow⟩ :=
    median_of_balanced hbound hledgers hagree hseen (x := 1) (by omega)
  obtain ⟨low', high', hmid', hhigh⟩ :=
    median_of_balanced hbound hledgers hagree hseen (x := 3) (by omega)
  obtain ⟨rfl, rfl⟩ := middle_low hdistinct hseen hmid
  obtain ⟨hlow', hhigh'⟩ := middle_high hdistinct hseen hmid'
  rw [getMedianPrice_balanced hs hv hlate 1 3, hhigh] at hlow
  have hsame := Except.ok.inj hlow
  omega

/-! ## Prices that binary64 rounds

Two prices of which the sum is odd and beyond `2 ^ 53`, or one beyond it. -/

/-- The lower price for the first half of the oracles. -/
def halves (oracles : List Address) (oracle : Address) : Nat :=
  if oracle ∈ oracles.take (oracles.length / 2) then 2 ^ 52 + 1 else 2 ^ 52 + 2

theorem middle_halves (hnodup : oracles.Nodup) (hpos : 0 < oracles.length)
    (heven : oracles.length % 2 = 0) :
    Middle (oracles.map (halves oracles)) (2 ^ 52 + 1) (2 ^ 52 + 2) := by
  have hsplit : (oracles.take (oracles.length / 2)).Disjoint
      (oracles.drop (oracles.length / 2)) := by
    apply List.disjoint_of_nodup_append
    rwa [List.take_append_drop]
  have hlow : (oracles.take (oracles.length / 2)).map (halves oracles) =
      List.replicate (oracles.length / 2) (2 ^ 52 + 1) := by
    rw [List.eq_replicate_iff, List.length_map, List.length_take]
    refine ⟨by omega, fun price hprice => ?_⟩
    obtain ⟨a, ha, rfl⟩ := List.mem_map.mp hprice
    exact if_pos ha
  have hhigh : (oracles.drop (oracles.length / 2)).map (halves oracles) =
      List.replicate (oracles.length / 2) (2 ^ 52 + 2) := by
    rw [List.eq_replicate_iff, List.length_map, List.length_drop]
    refine ⟨by omega, fun price hprice => ?_⟩
    obtain ⟨a, ha, rfl⟩ := List.mem_map.mp hprice
    exact if_neg fun h => hsplit h ha
  rw [← List.take_append_drop (oracles.length / 2) oracles, List.map_append,
    List.take_append_drop, hlow, hhigh]
  exact Middle.of_halves (by omega) (by omega)

/-- Above the bound some prices have a mean that is not kept. -/
theorem exists_not_meanKept (hnodup : s.oracles.Nodup) (hnone : NoneAhead w s) {bound : Nat}
    (hvalid : validPrices w s ≠ []) (hbound : exactBound (validPrices w s).length < bound) :
    ∃ w', SameLedgers w w' ∧ PricesUpTo bound w' ∧ ¬ MeanKept w' s := by
  have hprices : ∀ price, validPrices (reprice w price) s = (seen w s).map price := fun price => by
    rw [← offChainPrice_eq ((SameLedgers.of_reprice w price).noneAhead hnone)]
    exact offChainPrice_reprice w s price
  have hlength : (validPrices w s).length = (seen w s).length := by
    rw [← (SameLedgers.of_reprice w fun _ => 0).validPrices_length, hprices, List.length_map]
  have hpos : 0 < (seen w s).length := hlength ▸ List.length_pos_of_ne_nil hvalid
  rw [hlength, exactBound] at hbound
  split at hbound
  next heven =>
    refine ⟨_, SameLedgers.of_reprice w (halves (seen w s)), pricesUpTo_reprice w ?_, ?_⟩
    · intro a
      unfold halves
      split <;> omega
    · intro hkept
      have hdistinct : (seen w s).Nodup := hnodup.filter _
      have hmid := middle_halves hdistinct hpos heven
      rw [← hprices] at hmid
      exact absurd (hkept _ _ hmid) (by decide +kernel)
  next hodd =>
    refine ⟨_, SameLedgers.of_reprice w fun _ => 2 ^ 53 + 1, pricesUpTo_reprice w ?_, ?_⟩
    · exact fun _ => hbound
    · intro hkept
      have hmid := Middle.of_replicate hpos (2 ^ 53 + 1)
      rw [← List.map_const', ← hprices] at hmid
      exact absurd (hkept _ _ hmid) (by decide +kernel)

/-- Given who is registered and the ledgers of their submissions, the two agree at all
prices up to a bound exactly if no submission is from a later ledger than the current one
and, unless none is valid, the bound is one up to which binary64 keeps every mean. Where no
submission is from a later ledger, they agree at the prices that are there exactly if it
keeps the mean of these. -/
theorem agreement_iff (name : Address → String) (hs : w.settings = some s)
    (hnodup : s.oracles.Nodup) (hfew : s.oracles.length ≤ 20) (hledgers : LedgersFit w) :
    (∀ bound, 3 ≤ bound → bound < 2 ^ 63 →
      ((∀ w', SameLedgers w w' → PricesUpTo bound w' → Agree name w' s) ↔
        NoneAhead w s ∧ (validPrices w s = [] ∨ bound ≤ exactBound (validPrices w s).length))) ∧
    (NoneAhead w s → PricesUpTo (2 ^ 63 - 1) w → (Agree name w s ↔ MeanKept w s)) := by
  constructor
  · intro bound hlarge hfit
    constructor
    · intro hagree
      have hnone := noneAhead_of_agree hlarge hs hnodup hledgers hagree
      refine ⟨hnone, or_iff_not_imp_left.mpr fun hvalid => ?_⟩
      by_contra hbound
      obtain ⟨w', hsame, hprices, hlost⟩ :=
        exists_not_meanKept hnodup hnone hvalid (not_le.mp hbound)
      exact hlost ((hagree w' hsame hprices).meanKept (hsame.settings.trans hs) hfew
        (hsame.ledgersFit hledgers) (hprices.mono (by omega)) (hsame.noneAhead hnone))
    · rintro ⟨hnone, hbound⟩ w' hsame hprices
      refine agree_of_meanKept name (hsame.settings.trans hs) hfew (hsame.ledgersFit hledgers)
        (hprices.mono (by omega)) (hsame.noneAhead hnone) ?_
      rcases hbound with hempty | hbound
      · intro low high hmid
        have hlength := hsame.validPrices_length (s := s)
        rw [hempty, List.length_nil, List.length_eq_zero_iff] at hlength
        have hmem := OrderStatistics.kthSmallest_mem hmid.low
        rw [hlength] at hmem
        contradiction
      · refine meanKept_of_bound ?_
        rw [hsame.validPrices_length]
        exact hprices.mono hbound
  · intro hnone hfit
    exact ⟨fun h => h.meanKept hs hfew hledgers hfit hnone,
      agree_of_meanKept name hs hfew hledgers hfit hnone⟩

namespace Sample

open CarbonOracle.Sample (admin oracle)

def settings : Settings := ⟨admin, 50, [oracle 1, oracle 2]⟩

/-- Two submissions read in ledger 100, the second one of ledger `ledgerSeq`. -/
def pair (first second ledgerSeq : Nat) : State where
  sequence := 100
  settings := some settings
  prices := (AList.insert (oracle 1) (first, 100) ∅).insert (oracle 2) (second, ledgerSeq)

/-- Two prices from the past with an odd sum beyond `2 ^ 53`. -/
def large : State := pair 4503599627370497 4503599627370498 90

theorem pair_submission {first second ledgerSeq : Nat} {a : Address} {v : Nat × Nat}
    (h : (pair first second ledgerSeq).prices.lookup a = some v) :
    v = (second, ledgerSeq) ∨ v = (first, 100) := by
  rcases KeyedStore.lookup_insert_cases h with ⟨-, rfl⟩ | ⟨-, h⟩
  · exact .inl rfl
  · rcases KeyedStore.lookup_insert_cases h with ⟨-, rfl⟩ | ⟨-, h⟩
    · exact .inr rfl
    · simp at h

theorem pair_ledgersFit {first second ledgerSeq : Nat} (h : ledgerSeq ≤ U32.MAX) :
    LedgersFit (pair first second ledgerSeq) where
  sequence := show 100 ≤ U32.MAX by decide
  submissions a v hv := by
    rcases pair_submission hv with rfl | rfl
    · exact h
    · exact show 100 ≤ U32.MAX by decide

theorem pair_fits {first second bound : Nat} (hfirst : first ≤ bound) (hsecond : second ≤ bound)
    (ledgerSeq : Nat) : PricesUpTo bound (pair first second ledgerSeq) := by
  intro a v hv
  rcases pair_submission hv with rfl | rfl
  · exact hsecond
  · exact hfirst

end Sample

/-- Both submissions are from the past, at prices just small enough. -/
theorem sample_agreement :
    Agree (fun _ => "feed") (Sample.pair 10 (2 ^ 52 + 1) 90) Sample.settings :=
  have hnone : NoneAhead (Sample.pair 10 (2 ^ 52 + 1) 90) Sample.settings := fun a _ v hv => by
    rcases Sample.pair_submission hv with rfl | rfl <;> decide
  ((agreement_iff (fun _ => "feed") rfl (by decide) (by decide)
    (Sample.pair_ledgersFit (by decide))).1 (2 ^ 52 + 1) (by decide) (by decide)).mpr
      ⟨hnone, .inr (by decide)⟩ _ ⟨rfl, rfl, fun _ => rfl⟩
        (Sample.pair_fits (by decide) le_rfl 90)

/-- Of two submissions one is of ledger 101, read in ledger 100, and counts off chain only.
Two others have prices with a sum that binary64 rounds up. -/
theorem submissions_disagree :
    (¬ ∀ (name : Address → String) (w : State) (s : Settings), w.settings = some s →
      s.oracles.Nodup → s.oracles.length ≤ 20 → LedgersFit w → PricesUpTo (2 ^ 63 - 1) w →
        Agree name w s) ∧
    ¬ ∀ (name : Address → String) (w : State) (s : Settings), w.settings = some s →
      s.oracles.Nodup → s.oracles.length ≤ 20 → LedgersFit w → PricesUpTo (2 ^ 63 - 1) w →
        NoneAhead w s → Agree name w s := by
  constructor
  · intro h
    have hagree := h (fun _ => "feed") (Sample.pair 10 30 101) Sample.settings rfl (by decide)
      (by decide) (Sample.pair_ledgersFit (by decide))
      (Sample.pair_fits (by decide) (by decide) 101)
    have hoff : aggregate binary64
        (samplesOf (fun _ => "feed") (Sample.pair 10 30 101) Sample.settings)
        (optionsOf (Sample.pair 10 30 101) Sample.settings 100) =
          .ok ⟨some 20, ["feed", "feed"], [], []⟩ := by
      decide +kernel
    have hon : getMedianPrice (Sample.pair 10 30 101) = .ok 10 := by decide +kernel
    have hfloor := hagree.floor_eq hoff rfl rfl hon
    norm_num at hfloor
  · intro h
    have hnone : NoneAhead Sample.large Sample.settings :=
      fun a _ v hv => by rcases Sample.pair_submission hv with rfl | rfl <;> decide
    have hagree := h (fun _ => "feed") Sample.large Sample.settings rfl (by decide) (by decide)
      (Sample.pair_ledgersFit (by decide)) (Sample.pair_fits (by decide) (by decide) 90) hnone
    have hoff : aggregate binary64 (samplesOf (fun _ => "feed") Sample.large Sample.settings)
        (optionsOf Sample.large Sample.settings 100) =
          .ok ⟨some 4503599627370498, ["feed", "feed"], [], []⟩ := by
      decide +kernel
    have hon : getMedianPrice Sample.large = .ok 4503599627370497 := by decide +kernel
    have hfloor := hagree.floor_eq hoff rfl rfl hon
    norm_num at hfloor

end StellarKraal.Aggregation.Rounded
