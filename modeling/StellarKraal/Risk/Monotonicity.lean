import StellarKraal.Risk.Liquidation

/-!
# The health factor and its inputs

A higher price or a higher appraisal never lowers a health factor. Every step from
the price to the factor is monotone: the saturating products, the minimum with the
appraisal, the sum and the divisions. The one exception is the fallback to the
value at origination, which takes the place of a sum of zero; records as the
contract stores them are worth at least one, and a sum of them is zero only where
none of them is found.
-/

namespace StellarKraal

/-- Effective prices in order. Without a price nothing is capped, so none stands
above all others. -/
def PriceLE : Option Int → Option Int → Prop
  | some low, some high => low ≤ high
  | none, some _ => False
  | _, none => True

/-- The records listed by the loan, where they are found, are as the contract
stores them. -/
def ListedSound (w : World) (loan : LoanRecord) : Prop :=
  ∀ colId ∈ loan.collateralIds, ∀ col, w.collaterals.lookup colId = some col → col.Sound

/-- The worlds differ in the price and in nothing else that values collateral. -/
structure SameBook (w w' : World) : Prop where
  collaterals : w'.collaterals = w.collaterals
  tolerance : w'.getOr (·.devBps) 2000 = w.getOr (·.devBps) 2000

/-- The world with one record appraised anew. -/
def World.reappraise (w : World) (colId : Nat) (col : CollateralRecord) (value : Int) : World :=
  { w with collaterals := w.collaterals.insert colId { col with appraisedValue := value } }

theorem World.reappraise_lookup (w : World) (colId : Nat) (col : CollateralRecord) (value : Int)
    (id : Nat) : (w.reappraise colId col value).collaterals.lookup id =
      if id = colId then some { col with appraisedValue := value } else w.collaterals.lookup id :=
  KeyedStore.lookup_insert _ _ _ _

/-! ## Values -/

variable {w w' : World}

theorem getCollateralEffectiveValue_of_none {col : CollateralRecord}
    (hprice : getEffectiveOraclePrice w = none) :
    getCollateralEffectiveValue w col = col.appraisedValue := by
  simp only [getCollateralEffectiveValue, hprice]

theorem getCollateralEffectiveValue_of_some {col : CollateralRecord} {price : Int}
    (hprice : getEffectiveOraclePrice w = some price) :
    getCollateralEffectiveValue w col =
      min col.appraisedValue (oracleMaxTotal w col.count price) := by
  simp only [getCollateralEffectiveValue, hprice]
  split
  next habove => exact (min_eq_right habove.le).symm
  next hbelow => exact (min_eq_left (not_lt.mp hbelow)).symm

theorem oracleMaxTotal_mono (htolerance : w'.getOr (·.devBps) 2000 = w.getOr (·.devBps) 2000)
    (count : Nat) {low high : Int} (hlow : 0 ≤ low) (hle : low ≤ high) :
    oracleMaxTotal w count low ≤ oracleMaxTotal w' count high := by
  simp only [oracleMaxTotal, htolerance]
  have hfactor : (0 : Int) ≤ ((10000 + w.getOr (·.devBps) 2000 : Nat) : Int) :=
    Int.natCast_nonneg _
  have hunit := I128.mulOrMax_mono hlow hfactor hle le_rfl
  have hunit_nonneg := I128.mulOrMax_nonneg hlow hfactor
  exact I128.mulOrMax_mono (Int.natCast_nonneg count) (Int.tdiv_nonneg hunit_nonneg (by decide))
    le_rfl (Int.tdiv_le_tdiv (by decide) hunit)

/-- A record is worth no more at a lower price, whatever it holds. -/
theorem getCollateralEffectiveValue_mono (col : CollateralRecord)
    (htolerance : w'.getOr (·.devBps) 2000 = w.getOr (·.devBps) 2000)
    (hprice : PriceLE (getEffectiveOraclePrice w) (getEffectiveOraclePrice w')) :
    getCollateralEffectiveValue w col ≤ getCollateralEffectiveValue w' col := by
  cases hhigh : getEffectiveOraclePrice w' with
  | none =>
      rw [getCollateralEffectiveValue_of_none hhigh]
      cases hlow : getEffectiveOraclePrice w with
      | none => exact (getCollateralEffectiveValue_of_none hlow).le
      | some low =>
          rw [getCollateralEffectiveValue_of_some hlow]
          exact min_le_left _ _
  | some high =>
      cases hlow : getEffectiveOraclePrice w with
      | none => simp [hlow, hhigh, PriceLE] at hprice
      | some low =>
          have hle : low ≤ high := by simpa [hlow, hhigh, PriceLE] using hprice
          rw [getCollateralEffectiveValue_of_some hlow, getCollateralEffectiveValue_of_some hhigh]
          exact min_le_min_left _
            (oracleMaxTotal_mono htolerance _ (getEffectiveOraclePrice_pos hlow).le hle)

theorem getCollateralEffectiveValue_appraised {col col' : CollateralRecord}
    (hconfig : w'.config = w.config) (hcount : col'.count = col.count)
    (hle : col.appraisedValue ≤ col'.appraisedValue) :
    getCollateralEffectiveValue w col ≤ getCollateralEffectiveValue w' col' := by
  have hsame : getCollateralEffectiveValue w' col' = getCollateralEffectiveValue w col' :=
    getCollateralEffectiveValue_congr hconfig rfl rfl
  rw [hsame]
  cases hprice : getEffectiveOraclePrice w with
  | none =>
      rw [getCollateralEffectiveValue_of_none hprice, getCollateralEffectiveValue_of_none hprice]
      exact hle
  | some price =>
      rw [getCollateralEffectiveValue_of_some hprice, getCollateralEffectiveValue_of_some hprice,
        hcount]
      exact min_le_min_right _ hle

/-! ## Sums and the factor -/

/-- What is listed is worth no more in `w` than in `w'`, and worth something in both
or in neither. -/
structure Outvalued (ids : List Nat) (w w' : World) : Prop where
  nonneg : ∀ colId ∈ ids, 0 ≤ effectiveValueOf w colId
  le : ∀ colId ∈ ids, effectiveValueOf w colId ≤ effectiveValueOf w' colId
  worthless : ∀ colId ∈ ids, effectiveValueOf w colId = 0 → effectiveValueOf w' colId = 0

/-- Enough for it: every record found in `w` is sound and found in `w'` worth as
much, and nothing else is found there. -/
theorem Outvalued.of_records {loan : LoanRecord} (hsound : ListedSound w loan)
    (hfound : ∀ colId col, w.collaterals.lookup colId = some col →
      ∃ col', w'.collaterals.lookup colId = some col' ∧
        getCollateralEffectiveValue w col ≤ getCollateralEffectiveValue w' col')
    (hmissing : ∀ colId, w.collaterals.lookup colId = none →
      w'.collaterals.lookup colId = none) : Outvalued loan.collateralIds w w' := by
  have hrecord : ∀ colId ∈ loan.collateralIds,
      (effectiveValueOf w colId = 0 ∧ effectiveValueOf w' colId = 0) ∨
        (0 < effectiveValueOf w colId ∧ effectiveValueOf w colId ≤ effectiveValueOf w' colId) := by
    intro colId hlisted
    cases hlookup : w.collaterals.lookup colId with
    | none =>
        left
        simp [effectiveValueOf, hlookup, hmissing colId hlookup]
    | some col =>
        right
        obtain ⟨col', hlookup', hle⟩ := hfound colId col hlookup
        have hpos := getCollateralEffectiveValue_pos (w := w) (hsound colId hlisted col hlookup)
        simpa [effectiveValueOf, hlookup, hlookup'] using And.intro hpos hle
  refine ⟨?_, ?_, ?_⟩
  all_goals
    intro colId hlisted
    have hcases := hrecord colId hlisted
    omega

namespace Outvalued

variable {ids : List Nat}

theorem collateralValue_le (h : Outvalued ids w w') :
    collateralValue w ids ≤ collateralValue w' ids :=
  List.sum_le_sum h.le

theorem collateralValue_nonneg (h : Outvalued ids w w') : 0 ≤ collateralValue w ids := by
  apply List.sum_nonneg
  intro value hvalue
  obtain ⟨colId, hlisted, rfl⟩ := List.mem_map.mp hvalue
  exact h.nonneg colId hlisted

/-- Both sums are zero or neither is: the fallback is taken on both sides. -/
theorem collateralValue_eq_zero_iff (h : Outvalued ids w w') :
    collateralValue w ids = 0 ↔ collateralValue w' ids = 0 := by
  constructor
  · intro hzero
    have hnonneg : ∀ value ∈ ids.map (effectiveValueOf w), 0 ≤ value := by
      intro value hvalue
      obtain ⟨colId, hlisted, rfl⟩ := List.mem_map.mp hvalue
      exact h.nonneg colId hlisted
    apply List.sum_eq_zero
    intro value hvalue
    obtain ⟨colId, hlisted, rfl⟩ := List.mem_map.mp hvalue
    exact h.worthless colId hlisted
      (List.all_zero_of_le_zero_le_of_sum_eq_zero hnonneg hzero (List.mem_map_of_mem hlisted))
  · intro hzero
    exact le_antisymm (h.collateralValue_le.trans hzero.le) h.collateralValue_nonneg

theorem healthValue_le {loan : LoanRecord} (h : Outvalued loan.collateralIds w w') :
    healthValue w loan ≤ healthValue w' loan := by
  have hzero := h.collateralValue_eq_zero_iff
  have hle := h.collateralValue_le
  unfold healthValue
  split_ifs with hlow hhigh hhigh
  · exact le_rfl
  · exact absurd ⟨hzero.mp hlow.1, hlow.2⟩ hhigh
  · exact absurd ⟨hzero.mpr hhigh.1, hhigh.2⟩ hlow
  · exact hle

end Outvalued

theorem healthRatio_mono {value value' outstanding : Int} {thr : Nat}
    (houtstanding : 0 ≤ outstanding) (hle : value ≤ value') :
    healthRatio value outstanding thr ≤ healthRatio value' outstanding thr := by
  have hscaled : value * thr * 10000 ≤ value' * thr * 10000 :=
    mul_le_mul_of_nonneg_right (mul_le_mul_of_nonneg_right hle (Int.natCast_nonneg thr))
      (by decide)
  rcases houtstanding.eq_or_lt with rfl | hpos
  · simp [healthRatio]
  · exact Int.tdiv_le_tdiv (by omega) hscaled

theorem computeHealthFactorWithThr_mono {loan : LoanRecord} {thr : Nat} {hf hf' : Int}
    (houtstanding : 0 ≤ loan.outstanding) (hvalues : Outvalued loan.collateralIds w w')
    (h : computeHealthFactorWithThr w loan thr = .ok hf)
    (h' : computeHealthFactorWithThr w' loan thr = .ok hf') : hf ≤ hf' := by
  by_cases hdebt : loan.outstanding + loan.interestAccrued = 0
  -- Nothing owed: both answers are the largest value there is.
  · have hmax : ∀ v hf, computeHealthFactorWithThr v loan thr = .ok hf → hf = I128.MAX := by
      intro v hf hv
      simp only [computeHealthFactorWithThr, Except.bind_succeeds, Except.okOr_eq_ok,
        I128.checkedAdd_eq_some] at hv
      obtain ⟨_, ⟨-, rfl⟩, hv⟩ := hv
      rw [if_pos hdebt] at hv
      exact (Except.pure_succeeds.mp hv).symm
    rw [hmax w hf h, hmax w' hf' h']
  · rw [computeHealthFactorWithThr_ok h hdebt, computeHealthFactorWithThr_ok h' hdebt]
    exact healthRatio_mono houtstanding hvalues.healthValue_le

/-! ## The two directions -/

/-- Stored loans and the collateral they list meet both conditions below. -/
theorem reachable_listedSound {asset : AssetContract} {loanId : Nat} {loan : LoanRecord}
    (hreach : (protocol asset).Reachable w) (hloan : w.loans.lookup loanId = some loan) :
    0 ≤ loan.outstanding ∧ ListedSound w loan :=
  ⟨(reachable_sound hreach _ _ hloan).outstanding_nonneg,
    fun colId _ => (reachable_collaterals hreach).sound colId⟩

/-- The lower the price, the lower the health factor, and the same for each single
appraisal, on loans without negative principal against sound records. -/
theorem health_factor_monotone {loan : LoanRecord} {thr : Nat} {hf : Int}
    (houtstanding : 0 ≤ loan.outstanding) (hsound : ListedSound w loan)
    (h : computeHealthFactorWithThr w loan thr = .ok hf) :
    (∀ w' hf', SameBook w w' →
      PriceLE (getEffectiveOraclePrice w) (getEffectiveOraclePrice w') →
        computeHealthFactorWithThr w' loan thr = .ok hf' → hf ≤ hf') ∧
    ∀ colId col value hf', w.collaterals.lookup colId = some col → col.appraisedValue ≤ value →
      computeHealthFactorWithThr (w.reappraise colId col value) loan thr = .ok hf' →
        hf ≤ hf' := by
  constructor
  · intro w' hf' hbook hprice h'
    refine computeHealthFactorWithThr_mono houtstanding (.of_records hsound ?_ ?_) h h'
    · intro colId col hlookup
      exact ⟨col, by rw [hbook.collaterals, hlookup],
        getCollateralEffectiveValue_mono col hbook.tolerance hprice⟩
    · intro colId hlookup
      rw [hbook.collaterals, hlookup]
  · intro colId col value hf' hstored hle h'
    refine computeHealthFactorWithThr_mono houtstanding (.of_records hsound ?_ ?_) h h'
    · intro otherId other hlookup
      rw [World.reappraise_lookup]
      split_ifs with hid
      · obtain rfl := hid
        obtain rfl := Option.mem_unique hstored hlookup
        exact ⟨_, rfl, getCollateralEffectiveValue_appraised rfl rfl hle⟩
      · exact ⟨other, hlookup, getCollateralEffectiveValue_appraised rfl rfl le_rfl⟩
    · intro otherId hlookup
      have hid : otherId ≠ colId := by
        rintro rfl
        simp [hstored] at hlookup
      rw [World.reappraise_lookup, if_neg hid, hlookup]

/-- A loan against collateral 1, taken when that was worth a million. -/
def Sample.loanOf (outstanding : Int) : LoanRecord :=
  { newLoan Sample.world 1 Sample.farmer [1] 1000000 600000 with outstanding }

/-- That loan against ten cattle worth a million, at a price for each of them. -/
def Sample.herdAt (price : Int) : World :=
  after [initialization 6000 8000, registration 1000000, request 600000,
    signedBy oracle (.submitPrice oracle price)]

/-- The price of 100000 halves: the loan of 600000 falls from 133 % to 80 %. -/
theorem sample_health_factor_monotone :
    (Sample.herdAt 50000).loans.lookup 1 = some (Sample.loanOf 600000) ∧
      computeHealthFactorWithThr (Sample.herdAt 50000) (Sample.loanOf 600000) 8000 = .ok 8000 ∧
      computeHealthFactorWithThr (Sample.herdAt 100000) (Sample.loanOf 600000) 8000 =
        .ok 13333 ∧ (8000 : Int) ≤ 13333 := by
  have hbefore : computeHealthFactorWithThr (Sample.herdAt 50000) (Sample.loanOf 600000) 8000 =
      .ok 8000 := rfl
  have hafter : computeHealthFactorWithThr (Sample.herdAt 100000) (Sample.loanOf 600000) 8000 =
      .ok 13333 := rfl
  have hloan : (Sample.herdAt 50000).loans.lookup 1 = some (Sample.loanOf 600000) := rfl
  have hbook : SameBook (Sample.herdAt 50000) (Sample.herdAt 100000) := ⟨rfl, rfl⟩
  obtain ⟨houtstanding, hsound⟩ := reachable_listedSound (Sample.after_reachable _) hloan
  exact ⟨hloan, hbefore, hafter, (health_factor_monotone houtstanding hsound hbefore).1 _ _ hbook
    (show (50000 : Int) ≤ 100000 by decide) hafter⟩

/-- A world with one collateral record, and the last price of one animal. -/
def Sample.valued (count : Nat) (appraisedValue lastPrice : Int) : World where
  timestamp := 0
  ledger := Sample.world.ledger
  config := some { initialConfig Sample.admin Sample.oracle Sample.token Sample.treasury
    6000 8000 1 with lastPrice }
  collaterals := (∅ : KeyedStore Nat CollateralRecord).insert 1
    ⟨Sample.farmer, "cattle", count, appraisedValue, 0, [appraisedValue]⟩

/-- None of the three conditions can be left out. Without animals any price makes the
record worthless, and the loan is as healthy as at origination; so it is on a record
appraised at zero; and a negative principal reverses the order. -/
theorem degenerate_records_reverse_health :
    (¬ ∀ (w w' : World) (loan : LoanRecord) (thr : Nat) (hf hf' : Int),
      0 ≤ loan.outstanding → (∀ colId ∈ loan.collateralIds, ∀ col,
        w.collaterals.lookup colId = some col → 0 < col.appraisedValue) →
      SameBook w w' → PriceLE (getEffectiveOraclePrice w) (getEffectiveOraclePrice w') →
      computeHealthFactorWithThr w loan thr = .ok hf →
      computeHealthFactorWithThr w' loan thr = .ok hf' → hf ≤ hf') ∧
    (¬ ∀ (w : World) (loan : LoanRecord) (thr colId : Nat) (col : CollateralRecord)
        (value hf hf' : Int),
      0 ≤ loan.outstanding → (∀ colId ∈ loan.collateralIds, ∀ col,
        w.collaterals.lookup colId = some col → 0 < col.count) →
      w.collaterals.lookup colId = some col → col.appraisedValue ≤ value →
      computeHealthFactorWithThr w loan thr = .ok hf →
      computeHealthFactorWithThr (w.reappraise colId col value) loan thr = .ok hf' →
        hf ≤ hf') ∧
    ¬ ∀ (w w' : World) (loan : LoanRecord) (thr : Nat) (hf hf' : Int), ListedSound w loan →
      SameBook w w' → PriceLE (getEffectiveOraclePrice w) (getEffectiveOraclePrice w') →
      computeHealthFactorWithThr w loan thr = .ok hf →
      computeHealthFactorWithThr w' loan thr = .ok hf' → hf ≤ hf' := by
  have hlisted : ∀ (count : Nat) (value price : Int) (P : CollateralRecord → Prop),
      P ⟨Sample.farmer, "cattle", count, value, 0, [value]⟩ → ∀ colId ∈ [1], ∀ col,
        (Sample.valued count value price).collaterals.lookup colId = some col → P col := by
    intro count value price P hP colId hmem col hlookup
    obtain rfl := List.mem_singleton.mp hmem
    obtain rfl := Option.some.inj ((AList.lookup_insert _).symm.trans hlookup)
    exact hP
  refine ⟨fun hall => ?_, fun hall => ?_, fun hall => ?_⟩
  · have hle : (13333 : Int) ≤ 13 := hall (Sample.valued 0 1000 500000) (Sample.valued 0 1000 0)
      (Sample.loanOf 600000) 8000 13333 13 (by decide) (hlisted _ _ _ _ (by decide)) ⟨rfl, rfl⟩
      trivial rfl rfl
    exact absurd hle (by decide)
  · have hle : (13333 : Int) ≤ 0 := hall (Sample.valued 1 0 0) (Sample.loanOf 600000) 8000 1
      ⟨Sample.farmer, "cattle", 1, 0, 0, [0]⟩ 1 13333 0 (by decide)
      (hlisted _ _ _ _ (by decide)) rfl (by decide) rfl rfl
    exact absurd hle (by decide)
  · have hle : (-8000 : Int) ≤ -13333 := hall (Sample.valued 1 1000000 500000)
      (Sample.valued 1 1000000 1000000) (Sample.loanOf (-600000)) 8000 (-8000) (-13333)
      (hlisted _ _ _ _ ⟨by decide, by decide⟩) ⟨rfl, rfl⟩
      (show (500000 : Int) ≤ 1000000 by decide) rfl rfl
    exact absurd hle (by decide)

end StellarKraal
