import StellarKraal.Aggregation.Accounting

/-!
# The appraisal price

All adapters are asked for a price per kilogram. The median of those that answer is
taken again without the outliers, and the internal table is used where none answers.
The reference median of an even number of prices lies between the two middle ones, and
where these are too far apart, every price is an outlier.
-/

namespace StellarKraal.Aggregation

open OrderStatistics (Middle kthSmallest_mem)

def rejectOutliers (values : List Number) (maxDeviationPct : Number) :
    Except String (List Number) :=
  if values.length = 0 then pure []
  else do
    let ref ← median values
    return values.filter fun v => !isOutlier v ref maxDeviationPct

/-! ## Price tables -/

inductive AnimalType
  | cattle
  | goat
  | sheep
  | pig
  | donkey
  deriving DecidableEq, Repr

def AnimalType.text : AnimalType → String
  | .cattle => "CATTLE"
  | .goat => "GOAT"
  | .sheep => "SHEEP"
  | .pig => "PIG"
  | .donkey => "DONKEY"

def basePricePerKgUsd : AnimalType → Number
  | .cattle => 2.5
  | .goat => 3.2
  | .sheep => 2.8
  | .pig => 1.9
  | .donkey => 1.4

def breedPremium : List (String × Number) :=
  [("CATTLE:angus", 1.35), ("CATTLE:brahman", 1.20), ("CATTLE:hereford", 1.28),
    ("CATTLE:local", 1.00), ("GOAT:boer", 1.40), ("GOAT:kalahari", 1.30), ("GOAT:local", 1.00),
    ("SHEEP:dorper", 1.25), ("SHEEP:merino", 1.20), ("SHEEP:local", 1.00),
    ("PIG:large white", 1.15), ("PIG:local", 1.00), ("DONKEY:local", 1.00)]

/-- `toLowerCase`, for the comparison with keys in ASCII. Of all other characters only the
Kelvin sign has a lower case in ASCII. -/
def toLowerCase (text : String) : String :=
  text.map fun c => if c.toNat = 0x212A then 'k' else c.toLower

/-- What the internal table says. -/
def tablePrice (type : AnimalType) (breed : String) : Number :=
  let base := basePricePerKgUsd type
  let premium := (breedPremium.lookup s!"{type.text}:{toLowerCase breed}").getD 1.0
  base * premium

/-! ## Adapters -/

/-- What the promise of a price comes to. -/
inductive Settled
  | fulfilled (value : Option Number)
  | rejected

structure OracleAdapter where
  name : String
  getPricePerKg (type : AnimalType) (breed : String) : Settled

def internalOracle : OracleAdapter where
  name := "internal"
  getPricePerKg type breed := .fulfilled (some (tablePrice type breed))

/-- A stub: no price. -/
def marketFeedOracle : OracleAdapter where
  name := "market-feed"
  getPricePerKg _ _ := .fulfilled none

def deployedOracles : List OracleAdapter := [internalOracle, marketFeedOracle]

def Settled.price : Settled → Option Number
  | .fulfilled value => value
  | .rejected => none

/-- The prices of the adapters that answer. -/
def answeredPrices (oracles : List OracleAdapter) (type : AnimalType) (breed : String) :
    List Number :=
  oracles.filterMap fun o => (o.getPricePerKg type breed).price

def aggregatedPricePerKg (oracles : List OracleAdapter) (maxDeviationPct : Number)
    (type : AnimalType) (breed : String) : Except String Number := do
  let prices := answeredPrices oracles type breed
  if prices.length = 0 then return tablePrice type breed
  else
    let filtered ← rejectOutliers prices maxDeviationPct
    median filtered

/-! ## What is left after the rejection -/

variable {values : List Number} {pct : Number}

/-- The middle prices are the same, or at most `pct` per cent of their mean away from it. -/
def MiddleClose (values : List Number) (pct : Number) : Prop :=
  ∀ low high, Middle values low high → 100 * (high - low) ≤ pct * (low + high)

theorem MiddleClose.of_odd (hodd : values.length % 2 = 1) (hpct : 0 ≤ pct)
    (hpos : ∀ v ∈ values, 0 < v) : MiddleClose values pct := by
  intro low high hmid
  obtain rfl := hmid.eq_of_odd hodd
  have hlow := hpos low (kthSmallest_mem hmid.low)
  rw [sub_self, mul_zero]
  exact mul_nonneg hpct (by linarith)

theorem rejectOutliers_eq (hne : values ≠ []) :
    rejectOutliers values pct =
      .ok (values.filter fun v => !isOutlier v (midpoint values) pct) := by
  rw [rejectOutliers, if_neg (by simpa using hne), median_eq_midpoint hne]
  rfl

theorem middleClose_iff {low high : Number} (h : Middle values low high) :
    MiddleClose values pct ↔ 100 * (high - low) ≤ pct * (low + high) := by
  constructor
  · exact fun hclose => hclose low high h
  · intro hclose low' high' h'
    obtain ⟨rfl, rfl⟩ := h.unique h'
    exact hclose

/-- Some price is kept exactly if the two middle ones are: none is nearer to the reference. -/
theorem kept_ne_nil_iff (hne : values ≠ []) (hpos : ∀ v ∈ values, 0 < v) :
    (values.filter fun v => !isOutlier v (midpoint values) pct) ≠ [] ↔ MiddleClose values pct := by
  obtain ⟨low, high, hmid⟩ := Middle.exists hne
  have hlow := hpos low (kthSmallest_mem hmid.low)
  have hle := hmid.le
  have hkept : ∀ v, (!isOutlier v (midpoint values) pct) = true ↔
      200 * |v - (low + high) / 2| ≤ pct * (low + high) := by
    intro v
    have hreference : |(low + high) / 2| = (low + high) / 2 := abs_of_pos (by linarith)
    rw [isOutlier_eq, midpoint_eq hmid, Bool.not_eq_true', decide_eq_false_iff_not, Deviates,
      hreference, not_lt]
    constructor <;> intro h <;> linarith
  rw [middleClose_iff hmid]
  constructor
  · intro hsome
    obtain ⟨v, hv⟩ := List.exists_mem_of_ne_nil _ hsome
    obtain ⟨hmem, hv⟩ := List.mem_filter.mp hv
    have hdistance : (high - low) / 2 ≤ |v - (low + high) / 2| := by
      rcases hmid.outside hmem with hbelow | habove
      · exact le_abs.mpr (.inr (by linarith))
      · exact le_abs.mpr (.inl (by linarith))
    linarith [(hkept v).mp hv]
  · intro hclose
    have hdistance : |low - (low + high) / 2| = (high - low) / 2 := by
      rw [abs_of_nonpos (by linarith)]
      linarith
    refine List.ne_nil_of_mem (List.mem_filter.mpr ⟨kthSmallest_mem hmid.low, ?_⟩)
    rw [hkept, hdistance]
    linarith

/-! ## When there is a price -/

/-- A price comes out, between the smallest and the largest answer where there is one. -/
def Priced (oracles : List OracleAdapter) (maxDeviationPct : Number) (type : AnimalType)
    (breed : String) : Prop :=
  ∃ price, aggregatedPricePerKg oracles maxDeviationPct type breed = .ok price ∧
    (answeredPrices oracles type breed ≠ [] →
      ∃ low ∈ answeredPrices oracles type breed, ∃ high ∈ answeredPrices oracles type breed,
        low ≤ price ∧ price ≤ high)

/-- The rejection leaves some price. -/
def KeepsSome (values : List Number) (maxDeviationPct : Number) : Prop :=
  values ≠ [] → ∃ kept, rejectOutliers values maxDeviationPct = .ok kept ∧ kept ≠ []

theorem middleClose_nil : MiddleClose [] pct :=
  fun _ _ h => nomatch h.low

theorem keepsSome_iff (hpos : ∀ v ∈ values, 0 < v) :
    KeepsSome values pct ↔ MiddleClose values pct := by
  rcases eq_or_ne values [] with rfl | hne
  · exact iff_of_true (fun h => absurd rfl h) middleClose_nil
  · rw [← kept_ne_nil_iff hne hpos, KeepsSome, rejectOutliers_eq hne]
    constructor
    · intro hkeeps
      obtain ⟨kept, hkept, hsome⟩ := hkeeps hne
      exact Except.ok.inj hkept ▸ hsome
    · exact fun hsome _ => ⟨_, rfl, hsome⟩

/-- There is a price if and only if the middle answers are close, and if and only if the
rejection leaves some answer. -/
theorem priced_iff_middle_close (oracles : List OracleAdapter) (type : AnimalType)
    (breed : String) (pct : Number) (hpos : ∀ v ∈ answeredPrices oracles type breed, 0 < v) :
    (Priced oracles pct type breed ↔ MiddleClose (answeredPrices oracles type breed) pct) ∧
    (KeepsSome (answeredPrices oracles type breed) pct ↔
      MiddleClose (answeredPrices oracles type breed) pct) := by
  refine ⟨?_, keepsSome_iff hpos⟩
  rw [Priced, aggregatedPricePerKg]
  generalize answeredPrices oracles type breed = values at hpos ⊢
  rcases eq_or_ne values [] with rfl | hne
  · exact iff_of_true ⟨_, rfl, fun h => absurd rfl h⟩ middleClose_nil
  · rw [← kept_ne_nil_iff hne hpos]
    simp only [rejectOutliers_eq hne, Except.bind_of_ok,
      if_neg (show ¬ values.length = 0 by simpa using hne)]
    generalize hkept : (values.filter fun v => !isOutlier v (midpoint values) pct) = kept
    constructor
    · rintro ⟨price, hprice, -⟩ rfl
      simp [median, Except.refuseIf] at hprice
    · intro hsome
      obtain ⟨low, hlow, high, hhigh, hbounds⟩ := midpoint_between hsome
      have hsubset : ∀ v ∈ kept, v ∈ values := fun v hv =>
        (List.mem_filter.mp (hkept ▸ hv)).1
      exact ⟨_, median_eq_midpoint hsome, fun _ =>
        ⟨low, hsubset low hlow, high, hsubset high hhigh, hbounds⟩⟩

/-! ## The adapters in use -/

theorem tablePrice_pos (type : AnimalType) (breed : String) : 0 < tablePrice type breed := by
  have hbase : 0 < basePricePerKgUsd type := by cases type <;> norm_num [basePricePerKgUsd]
  refine mul_pos hbase ?_
  have hall : ∀ entry ∈ breedPremium, 0 < entry.2 := by decide +kernel
  cases hpremium : breedPremium.lookup s!"{type.text}:{toLowerCase breed}" with
  | none => norm_num
  | some premium =>
      obtain ⟨before, after, hsplit, -⟩ := List.lookup_eq_some_iff.mp hpremium
      exact hall (_, premium) (hsplit ▸ List.mem_append_right _ List.mem_cons_self)

/-- With one live feed there always is a price. -/
theorem deployed_priced (hpct : 0 ≤ pct) (type : AnimalType) (breed : String) :
    Priced deployedOracles pct type breed := by
  have hpos : ∀ v ∈ answeredPrices deployedOracles type breed, 0 < v := by
    intro v hv
    obtain rfl := List.mem_singleton.mp hv
    exact tablePrice_pos type breed
  exact (priced_iff_middle_close _ _ _ _ hpos).1.mpr (.of_odd rfl hpct hpos)

/-! Feeds that answer the same for every animal. -/

namespace Sample

def feed (price : Option Number) : OracleAdapter := ⟨"feed", fun _ _ => .fulfilled price⟩

end Sample

/-- Two feeds that are ten per cent apart, and one that fails. -/
theorem sample_priced : Priced [Sample.feed (some 100), Sample.feed none, Sample.feed (some 110)]
    15 .cattle "Angus" := by
  refine (priced_iff_middle_close _ _ _ _ ?_).1.mpr ?_
  · decide +kernel
  · have hmid : Middle [100, 110] (100 : Number) 110 := ⟨by decide +kernel, by decide +kernel⟩
    exact (middleClose_iff hmid).mpr (by norm_num)

/-- Two feeds that disagree, and no price. -/
theorem disagreeing_feeds_throw :
    ¬ ∀ (oracles : List OracleAdapter) (pct : Number) (type : AnimalType) (breed : String),
      0 ≤ pct → (∀ v ∈ answeredPrices oracles type breed, 0 < v) →
        Priced oracles pct type breed := by
  intro hall
  obtain ⟨price, hprice, -⟩ := hall [Sample.feed (some 1), Sample.feed (some 100)] 15 .cattle
    "Angus" (by norm_num) (by decide +kernel)
  have hthrown : aggregatedPricePerKg [Sample.feed (some 1), Sample.feed (some 100)] 15 .cattle
      "Angus" = .error "median: values must be non-empty" := by decide +kernel
  exact nomatch hthrown.symm.trans hprice

end StellarKraal.Aggregation
