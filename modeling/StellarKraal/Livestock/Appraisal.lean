import StellarKraal.Aggregation.Appraisal
import StellarKraal.Aggregation.Robustness
import StellarKraal.Foundation.FixedDecimals

/-!
# What an animal is worth

The price per kilogram times the weight, discounted for age and health, is the market
value; the loan-to-value ratio leaves the collateral value, which is the ceiling of a
loan. Both are rounded to cents. Numbers are exact here, where the code has doubles.
-/

namespace StellarKraal.Livestock

open Aggregation (Number AnimalType OracleAdapter aggregatedPricePerKg answeredPrices tablePrice)
open DecimalText (fixedValue)
open Except (refuseIf)

inductive HealthStatus
  | excellent
  | good
  | fair
  | poor
  deriving DecidableEq, Repr

/-- What decides the value of an animal. -/
structure LivestockMetadata where
  type : AnimalType
  breed : String
  weightKg : Number
  ageMonths : Number
  healthStatus : HealthStatus
  deriving DecidableEq

structure AppraisalBreakdown where
  basePrice : Number
  weightAdjustment : Number
  ageMultiplier : Number
  healthMultiplier : Number
  deriving DecidableEq

structure AppraisalResult where
  marketValueUSDC : Number
  collateralValueUSDC : Number
  ltvRatio : Number
  confidence : Number
  breakdown : AppraisalBreakdown
  deriving DecidableEq

/-- The prime age of a species, in months. -/
def primeRange : AnimalType → Number × Number
  | .cattle => (24, 84)
  | .goat => (12, 60)
  | .sheep => (12, 60)
  | .pig => (6, 36)
  | .donkey => (36, 120)

def ageMultiplier (type : AnimalType) (ageMonths : Number) : Number :=
  let (primeStart, primeEnd) := primeRange type
  if ageMonths < primeStart * 0.5 then 0.60
  else if ageMonths < primeStart then 0.80
  else if ageMonths ≤ primeEnd then 1.00
  else if ageMonths ≤ primeEnd * 1.5 then 0.85
  else 0.65

def healthMultiplier : HealthStatus → Number
  | .excellent => 1.00
  | .good => 0.90
  | .fair => 0.75
  | .poor => 0.50

def ltvRatio : HealthStatus → Number
  | .excellent => 0.75
  | .good => 0.70
  | .fair => 0.60
  | .poor => 0.45

/-- The adapters that answered, as a share of all. -/
def confidence (oracles : List OracleAdapter) (type : AnimalType) (breed : String) : Number :=
  fixedValue 2 ((answeredPrices oracles type breed).length / oracles.length)

def marketValue (pricePerKg : Number) (m : LivestockMetadata) : Number :=
  fixedValue 2
    (pricePerKg * m.weightKg * ageMultiplier m.type m.ageMonths * healthMultiplier m.healthStatus)

def collateralValue (pricePerKg : Number) (m : LivestockMetadata) : Number :=
  fixedValue 2 (marketValue pricePerKg m * ltvRatio m.healthStatus)

def appraiseLivestock (oracles : List OracleAdapter) (maxDeviationPct : Number)
    (m : LivestockMetadata) : Except String AppraisalResult := do
  refuseIf (m.weightKg ≤ 0) "weightKg must be positive"
  refuseIf (m.ageMonths < 0) "ageMonths must be non-negative"
  let pricePerKg ← aggregatedPricePerKg oracles maxDeviationPct m.type m.breed
  return {
    marketValueUSDC := marketValue pricePerKg m
    collateralValueUSDC := collateralValue pricePerKg m
    ltvRatio := ltvRatio m.healthStatus
    confidence := confidence oracles m.type m.breed
    breakdown := {
      basePrice := fixedValue 2 (pricePerKg * m.weightKg)
      -- The weight is in the base price already.
      weightAdjustment := 0
      ageMultiplier := ageMultiplier m.type m.ageMonths
      healthMultiplier := healthMultiplier m.healthStatus } }

/-! ## Better animals are worth no less -/

theorem ageMultiplier_bounds (type : AnimalType) (ageMonths : Number) :
    0 < ageMultiplier type ageMonths ∧ ageMultiplier type ageMonths ≤ 1 := by
  unfold ageMultiplier
  dsimp only
  split_ifs <;> norm_num

theorem healthMultiplier_bounds (h : HealthStatus) :
    0 < healthMultiplier h ∧ healthMultiplier h ≤ 1 := by
  cases h <;> norm_num [healthMultiplier]

theorem ltvRatio_bounds (h : HealthStatus) : 0 < ltvRatio h ∧ ltvRatio h ≤ 3 / 4 := by
  cases h <;> norm_num [ltvRatio]

/-- Health as a rank, the best first. -/
def HealthStatus.rank : HealthStatus → Nat
  | .excellent => 0
  | .good => 1
  | .fair => 2
  | .poor => 3

/-- Of two animals of one kind the second is as heavy, as healthy and at as good an age. -/
structure NoWorse (m m' : LivestockMetadata) : Prop where
  type : m'.type = m.type
  breed : m'.breed = m.breed
  weight : m.weightKg ≤ m'.weightKg
  health : m'.healthStatus.rank ≤ m.healthStatus.rank
  age : ageMultiplier m.type m.ageMonths ≤ ageMultiplier m'.type m'.ageMonths

theorem NoWorse.refl (m : LivestockMetadata) : NoWorse m m :=
  ⟨rfl, rfl, le_rfl, le_rfl, le_rfl⟩

theorem NoWorse.multipliers {m m' : LivestockMetadata} (h : NoWorse m m') :
    healthMultiplier m.healthStatus ≤ healthMultiplier m'.healthStatus ∧
      ltvRatio m.healthStatus ≤ ltvRatio m'.healthStatus := by
  have hrank := h.health
  cases hm : m.healthStatus <;> cases hm' : m'.healthStatus <;>
    first
    | (exfalso; simp [hm, hm', HealthStatus.rank] at hrank; done)
    | norm_num [healthMultiplier, ltvRatio]

variable {price price' : Number} {m m' : LivestockMetadata}

theorem marketValue_nonneg (hprice : 0 ≤ price) (hweight : 0 ≤ m.weightKg) :
    0 ≤ marketValue price m :=
  DecimalText.fixedValue_nonneg (mul_nonneg (mul_nonneg (mul_nonneg hprice hweight)
    (ageMultiplier_bounds _ _).1.le) (healthMultiplier_bounds _).1.le)

theorem collateralValue_nonneg (hprice : 0 ≤ price) (hweight : 0 ≤ m.weightKg) :
    0 ≤ collateralValue price m :=
  DecimalText.fixedValue_nonneg
    (mul_nonneg (marketValue_nonneg hprice hweight) (ltvRatio_bounds _).1.le)

theorem collateralValue_nonpos (hprice : price ≤ 0) (hweight : 0 ≤ m.weightKg) :
    collateralValue price m ≤ 0 := by
  have hmarket : marketValue price m ≤ 0 :=
    DecimalText.fixedValue_nonpos (mul_nonpos_of_nonpos_of_nonneg (mul_nonpos_of_nonpos_of_nonneg
      (mul_nonpos_of_nonpos_of_nonneg hprice hweight) (ageMultiplier_bounds _ _).1.le)
      (healthMultiplier_bounds _).1.le)
  exact DecimalText.fixedValue_nonpos
    (mul_nonpos_of_nonpos_of_nonneg hmarket (ltvRatio_bounds _).1.le)

/-- Values grow with the price and with the animal. -/
theorem value_mono (hprice : 0 ≤ price) (hle : price ≤ price') (hweight : 0 ≤ m.weightKg)
    (h : NoWorse m m') : marketValue price m ≤ marketValue price' m' ∧
      collateralValue price m ≤ collateralValue price' m' := by
  obtain ⟨hhealth, hltv⟩ := h.multipliers
  have hage := (ageMultiplier_bounds m.type m.ageMonths).1.le
  have hage' := (ageMultiplier_bounds m'.type m'.ageMonths).1.le
  have hpos := (healthMultiplier_bounds m.healthStatus).1.le
  have hltvpos := (ltvRatio_bounds m.healthStatus).1.le
  have hbase : price * m.weightKg ≤ price' * m'.weightKg :=
    mul_le_mul hle h.weight hweight (hprice.trans hle)
  have haged : price * m.weightKg * ageMultiplier m.type m.ageMonths ≤
      price' * m'.weightKg * ageMultiplier m'.type m'.ageMonths :=
    mul_le_mul hbase h.age hage ((mul_nonneg hprice hweight).trans hbase)
  have hmarket : marketValue price m ≤ marketValue price' m' :=
    DecimalText.fixedValue_mono (by positivity)
      (mul_le_mul haged hhealth hpos ((by positivity : (0 : Number) ≤ _).trans haged))
  have hnonneg := marketValue_nonneg hprice hweight
  refine ⟨hmarket, DecimalText.fixedValue_mono (mul_nonneg hnonneg hltvpos) ?_⟩
  exact mul_le_mul hmarket hltv hltvpos (hnonneg.trans hmarket)

/-- The ceiling of a loan is three quarters of the market value, up to rounding, and
the market value is what the price and the weight allow. -/
theorem value_bounds (hprice : 0 ≤ price) (hweight : 0 ≤ m.weightKg) :
    collateralValue price m ≤ 3 / 4 * marketValue price m + 1 / 200 ∧
      marketValue price m ≤ price * m.weightKg + 1 / 200 := by
  have hage := ageMultiplier_bounds m.type m.ageMonths
  have hhealth := healthMultiplier_bounds m.healthStatus
  have hltv := ltvRatio_bounds m.healthStatus
  have hbase := mul_nonneg hprice hweight
  have hnonneg := marketValue_nonneg hprice hweight
  constructor
  · have herror := abs_le.mp (@DecimalText.fixedValue_error 2 _
      (mul_nonneg hnonneg hltv.1.le))
    have hshare : marketValue price m * ltvRatio m.healthStatus ≤ 3 / 4 * marketValue price m := by
      rw [mul_comm]
      exact mul_le_mul_of_nonneg_right hltv.2 hnonneg
    unfold collateralValue
    norm_num at herror ⊢
    linarith
  · have haged := mul_nonneg hbase hage.1.le
    have herror := abs_le.mp (@DecimalText.fixedValue_error 2 _
      (mul_nonneg haged hhealth.1.le))
    have hdiscount : price * m.weightKg * ageMultiplier m.type m.ageMonths *
        healthMultiplier m.healthStatus ≤ price * m.weightKg :=
      (mul_le_of_le_one_right haged hhealth.2).trans (mul_le_of_le_one_right hbase hage.2)
    unfold marketValue
    norm_num at herror ⊢
    linarith

/-! ## The appraisal -/

section Feeds

variable {oracles : List OracleAdapter} {maxDeviationPct lo hi : Number} {r r' : AppraisalResult}

theorem appraiseLivestock_ok (h : appraiseLivestock oracles maxDeviationPct m = .ok r) :
    0 < m.weightKg ∧ 0 ≤ m.ageMonths ∧ ∃ price,
      aggregatedPricePerKg oracles maxDeviationPct m.type m.breed = .ok price ∧
        r.marketValueUSDC = marketValue price m ∧
        r.collateralValueUSDC = collateralValue price m := by
  simp only [appraiseLivestock, Except.bind_succeeds, Except.refuseIf_eq_ok,
    Except.pure_succeeds, not_le, not_lt] at h
  obtain ⟨_, hweight, _, hage, price, hprice, rfl⟩ := h
  exact ⟨hweight, hage, price, hprice, rfl, rfl⟩

/-- More than half of the feeds that answer give a price from `lo` to `hi`; where none
answers, the table does. -/
def HonestFeeds (oracles : List OracleAdapter) (type : AnimalType) (breed : String)
    (lo hi : Number) : Prop :=
  if (answeredPrices oracles type breed).length = 0 then
    lo ≤ tablePrice type breed ∧ tablePrice type breed ≤ hi
  else
    (answeredPrices oracles type breed).length <
      2 * (answeredPrices oracles type breed).countP fun v => decide (lo ≤ v ∧ v ≤ hi)

/-- The price is within the deviation of a reference in the honest range. -/
theorem HonestFeeds.exists_reference {type : AnimalType} {breed : String}
    (h : HonestFeeds oracles type breed lo hi) (hlo : 0 < lo) (hpct : 0 ≤ maxDeviationPct)
    (hprice : aggregatedPricePerKg oracles maxDeviationPct type breed = .ok price) :
    ∃ ref, lo ≤ ref ∧ ref ≤ hi ∧ ref * (1 - maxDeviationPct / 100) ≤ price ∧
      price ≤ ref * (1 + maxDeviationPct / 100) := by
  unfold HonestFeeds at h
  rw [aggregatedPricePerKg] at hprice
  generalize answeredPrices oracles type breed = values at h hprice
  by_cases hnone : values.length = 0
  · rw [if_pos hnone] at h
    simp only [if_pos hnone, Except.pure_succeeds] at hprice
    obtain rfl := hprice
    have hpos := hlo.trans_le h.1
    refine ⟨_, h.1, h.2, ?_, ?_⟩
    · exact mul_le_of_le_one_right hpos.le (by linarith)
    · exact le_mul_of_one_le_right hpos.le (by linarith)
  · rw [if_neg hnone] at h
    simp only [if_neg hnone, Aggregation.rejectOutliers, Except.bind_succeeds,
      Except.pure_succeeds] at hprice
    obtain ⟨kept, ⟨ref, href, rfl⟩, hmedian⟩ := hprice
    obtain ⟨low, high, hmid, rfl⟩ := Aggregation.median_ok href
    obtain ⟨⟨hlow, hlow'⟩, hhigh, hhigh'⟩ := hmid.of_majority h
    have hge : lo ≤ (low + high) / 2 := by linarith
    have hle : (low + high) / 2 ≤ hi := by linarith
    exact ⟨_, hge, hle, Aggregation.median_between hmedian fun v hv =>
      Aggregation.within_deviation (hlo.trans_le hge) (by simpa using (List.mem_filter.mp hv).2)⟩

theorem HonestFeeds.price_le {type : AnimalType} {breed : String}
    (h : HonestFeeds oracles type breed lo hi) (hlo : 0 < lo) (hpct : 0 ≤ maxDeviationPct)
    (hprice : aggregatedPricePerKg oracles maxDeviationPct type breed = .ok price) :
    price ≤ hi * (1 + maxDeviationPct / 100) := by
  obtain ⟨ref, -, hle, -, habove⟩ := h.exists_reference hlo hpct hprice
  exact habove.trans (mul_le_mul_of_nonneg_right hle (by linarith))

theorem HonestFeeds.le_price {type : AnimalType} {breed : String}
    (h : HonestFeeds oracles type breed lo hi) (hlo : 0 < lo) (hpct : 0 ≤ maxDeviationPct)
    (hmax : maxDeviationPct ≤ 100)
    (hprice : aggregatedPricePerKg oracles maxDeviationPct type breed = .ok price) :
    lo * (1 - maxDeviationPct / 100) ≤ price := by
  obtain ⟨ref, hge, -, hbelow, -⟩ := h.exists_reference hlo hpct hprice
  exact (mul_le_mul_of_nonneg_right hge (by linarith)).trans hbelow

/-- The collateral value is at most what the highest honest price gives, up to the
deviation. -/
theorem HonestFeeds.collateral_le (h : HonestFeeds oracles m.type m.breed lo hi) (hlo : 0 < lo)
    (hpct : 0 ≤ maxDeviationPct) (hr : appraiseLivestock oracles maxDeviationPct m = .ok r) :
    r.collateralValueUSDC ≤ collateralValue (hi * (1 + maxDeviationPct / 100)) m := by
  obtain ⟨hweight, -, price, hprice, -, hcollateral⟩ := appraiseLivestock_ok hr
  have hhigh := h.price_le hlo hpct hprice
  rw [hcollateral]
  rcases le_total 0 price with hpos | hneg
  · exact (value_mono hpos hhigh hweight.le (NoWorse.refl m)).2
  · -- A deviation of more than a hundred percent allows prices below zero.
    obtain ⟨ref, hge, hle, -, -⟩ := h.exists_reference hlo hpct hprice
    have hceiling : 0 ≤ hi * (1 + maxDeviationPct / 100) :=
      mul_nonneg (hlo.le.trans (hge.trans hle)) (by linarith)
    exact (collateralValue_nonpos hneg hweight.le).trans
      (collateralValue_nonneg hceiling hweight.le)

/-- It is at least what the lowest honest price gives. -/
theorem HonestFeeds.le_collateral (h : HonestFeeds oracles m.type m.breed lo hi) (hlo : 0 < lo)
    (hpct : 0 ≤ maxDeviationPct) (hmax : maxDeviationPct ≤ 100)
    (hr : appraiseLivestock oracles maxDeviationPct m = .ok r) :
    collateralValue (lo * (1 - maxDeviationPct / 100)) m ≤ r.collateralValueUSDC := by
  obtain ⟨hweight, -, price, hprice, -, hcollateral⟩ := appraiseLivestock_ok hr
  have hfloor : 0 ≤ lo * (1 - maxDeviationPct / 100) := mul_nonneg hlo.le (by linarith)
  rw [hcollateral]
  exact (value_mono hfloor (h.le_price hlo hpct hmax hprice) hweight.le (NoWorse.refl m)).2

/-- Whatever a minority of the feeds answers, or if none does: the collateral value is one
that a price in the honest range, up to the allowed deviation, would have given; it is at
most three quarters of the market value up to rounding; and an animal that is no worse is
appraised no lower. -/
theorem appraisal_sound (hlo : 0 < lo) (hpct : 0 ≤ maxDeviationPct) (hmax : maxDeviationPct ≤ 100)
    (hfeeds : HonestFeeds oracles m.type m.breed lo hi)
    (h : appraiseLivestock oracles maxDeviationPct m = .ok r) :
    (collateralValue (lo * (1 - maxDeviationPct / 100)) m ≤ r.collateralValueUSDC ∧
      r.collateralValueUSDC ≤ collateralValue (hi * (1 + maxDeviationPct / 100)) m) ∧
    r.collateralValueUSDC ≤ 3 / 4 * r.marketValueUSDC + 1 / 200 ∧
    ∀ m' r', NoWorse m m' → appraiseLivestock oracles maxDeviationPct m' = .ok r' →
      r.marketValueUSDC ≤ r'.marketValueUSDC ∧
        r.collateralValueUSDC ≤ r'.collateralValueUSDC := by
  obtain ⟨hweight, -, price, hprice, hmarket, hcollateral⟩ := appraiseLivestock_ok h
  have hfloor : 0 ≤ lo * (1 - maxDeviationPct / 100) := mul_nonneg hlo.le (by linarith)
  have hnonneg := hfloor.trans (hfeeds.le_price hlo hpct hmax hprice)
  refine ⟨⟨hfeeds.le_collateral hlo hpct hmax h, hfeeds.collateral_le hlo hpct h⟩, ?_, ?_⟩
  · rw [hmarket, hcollateral]
    exact (value_bounds hnonneg hweight.le).1
  · intro m' r' hworse h'
    obtain ⟨-, -, price', hprice', hmarket', hcollateral'⟩ := appraiseLivestock_ok h'
    rw [hworse.type, hworse.breed] at hprice'
    obtain rfl := Except.ok.inj (hprice.symm.trans hprice')
    rw [hmarket, hcollateral, hmarket', hcollateral']
    exact value_mono hnonneg le_rfl hweight.le hworse

end Feeds

namespace Sample

/-- A bull of 400 kg in its prime. -/
def bull (healthStatus : HealthStatus) : LivestockMetadata :=
  ⟨.cattle, "Angus", 400, 36, healthStatus⟩

def feeds : List OracleAdapter :=
  [Aggregation.Sample.feed (some 3), Aggregation.Sample.feed (some 100),
    Aggregation.Sample.feed (some 2.9)]

end Sample

/-- One feed of three says a hundred dollars the kilogram. -/
theorem sample_appraisal_sound :
    (collateralValue (2.9 * (1 - 15 / 100)) (Sample.bull .good) ≤ 743.40 ∧
      743.40 ≤ collateralValue (3 * (1 + 15 / 100)) (Sample.bull .good)) ∧
    ∀ m' r', NoWorse (Sample.bull .good) m' →
      appraiseLivestock Sample.feeds 15 m' = .ok r' → 743.40 ≤ r'.collateralValueUSDC := by
  have hrun : appraiseLivestock Sample.feeds 15 (Sample.bull .good) =
      .ok ⟨1062, 743.40, 0.70, 1, ⟨1180, 0, 1, 0.90⟩⟩ := by
    decide +kernel
  have hfeeds : HonestFeeds Sample.feeds .cattle "Angus" 2.9 3 := by
    unfold HonestFeeds
    decide +kernel
  obtain ⟨hbounds, -, hmono⟩ :=
    appraisal_sound (by norm_num) (by norm_num) (by norm_num) hfeeds hrun
  exact ⟨hbounds, fun m' r' hworse h' => (hmono m' r' hworse h').2⟩

end StellarKraal.Livestock
