import StellarKraal.Lending.Pledges

/-!
# The health factor

Collateral is valued by two loops, one when a loan is requested and one when its
health is computed. Both add up the same effective values; the health factor
compares that sum, scaled by the threshold, with the outstanding principal.
-/

namespace StellarKraal

open Except (refuseIf okOr)

/-- The effective value stored under an id; nothing is worth nothing. -/
def effectiveValueOf (w : World) (colId : Nat) : Int :=
  ((w.collaterals.lookup colId).map (getCollateralEffectiveValue w)).getD 0

/-- The effective value of a list of collaterals, each as often as it is listed. -/
def collateralValue (w : World) (ids : List Nat) : Int := (ids.map (effectiveValueOf w)).sum

/-! ## Effective values are positive -/

theorem clampPrice_pos (w : World) {price : Int} (h : 0 < price) : 0 < clampPrice w price := by
  simp only [clampPrice]
  split_ifs <;> omega

theorem getEffectiveOraclePrice_pos {w : World} {price : Int}
    (h : getEffectiveOraclePrice w = some price) : 0 < price := by
  simp only [getEffectiveOraclePrice, Option.ite_none_left_eq_some, Option.some.injEq,
    not_le] at h
  obtain ⟨hpos, rfl⟩ := h
  exact clampPrice_pos w hpos

theorem oracleMaxTotal_pos (w : World) {count : Nat} {price : Int} (hcount : 0 < count)
    (hprice : 0 < price) : 0 < oracleMaxTotal w count price := by
  have hscale : (10000 : Int) ≤
      I128.mulOrMax price ((10000 + w.getOr (·.devBps) 2000 : Nat) : Int) := by
    -- The factor is at least 10000; a product that does not fit is replaced by a larger bound.
    unfold I128.mulOrMax I128.checkedMul I128.narrow
    split
    · have hdev : (10000 : Int) ≤ ((10000 + w.getOr (·.devBps) 2000 : Nat) : Int) := by
        exact_mod_cast Nat.le_add_right _ _
      have hprice : (1 : Int) ≤ price := hprice
      simp only [Option.getD_some]
      nlinarith
    · decide
  apply I128.mulOrMax_pos (by exact_mod_cast hcount)
  exact Int.lt_of_lt_of_le (by decide)
    ((Int.le_tdiv_iff (le_trans (by decide) hscale) (by decide)).mpr
      (show (1 : Int) * 10000 ≤ _ by simpa using hscale))

theorem getCollateralEffectiveValue_pos {w : World} {col : CollateralRecord} (h : col.Sound) :
    0 < getCollateralEffectiveValue w col := by
  unfold getCollateralEffectiveValue
  split
  next price hprice =>
    split
    · exact oracleMaxTotal_pos w h.count_pos (getEffectiveOraclePrice_pos hprice)
    · exact h.value_pos
  next => exact h.value_pos

theorem effectiveValueOf_nonneg {w : World} (h : CollateralsSound w) (colId : Nat) :
    0 ≤ effectiveValueOf w colId := by
  unfold effectiveValueOf
  cases hlookup : w.collaterals.lookup colId with
  | none => exact le_rfl
  | some col => exact (getCollateralEffectiveValue_pos (h.sound _ _ hlookup)).le

theorem collateralValue_nonneg {w : World} (h : CollateralsSound w) (ids : List Nat) :
    0 ≤ collateralValue w ids :=
  List.sum_nonneg fun value hvalue => by
    obtain ⟨colId, -, rfl⟩ := List.mem_map.mp hvalue
    exact effectiveValueOf_nonneg h colId

/-! ## The two loops -/

theorem addPledgedValue_ok {w : World} {borrower : Address} {total next : Int} {colId : Nat}
    (h : addPledgedValue w borrower total colId = .ok next) :
    next = total + effectiveValueOf w colId := by
  simp only [addPledgedValue, Except.bind_succeeds, Except.okOr_eq_ok, Except.refuseIf_eq_ok,
    I128.checkedAdd_eq_some] at h
  obtain ⟨col, hcol, _, -, -, rfl⟩ := h
  simp [effectiveValueOf, hcol]

theorem pledgedValue_ok {w : World} {borrower : Address} {ids : List Nat} {total : Int}
    (h : pledgedValue w borrower ids = .ok total) : total = collateralValue w ids := by
  have hsum := Except.foldlM_adds (g := effectiveValueOf w) (fun _ _ _ => addPledgedValue_ok) h
  rwa [zero_add] at hsum

theorem addCurrentValue_ok {w : World} {value next : Int} {colId : Nat}
    (h : addCurrentValue w value colId = .ok next) : next = value + effectiveValueOf w colId := by
  cases hlookup : w.collaterals.lookup colId with
  | none =>
      rw [addCurrentValue, hlookup] at h
      obtain rfl := Except.pure_succeeds.mp h
      simp [effectiveValueOf, hlookup]
  | some col =>
      simp only [addCurrentValue, hlookup, Except.okOr_eq_ok, I128.checkedAdd_eq_some] at h
      simp [effectiveValueOf, hlookup, ← h.2]

theorem addCurrentValue_eq {w : World} (hsound : CollateralsSound w) {value : Int} {colId : Nat}
    (hnonneg : 0 ≤ value) (hfits : value + effectiveValueOf w colId ≤ I128.MAX) :
    addCurrentValue w value colId = .ok (value + effectiveValueOf w colId) := by
  have hsum := add_nonneg hnonneg (effectiveValueOf_nonneg hsound colId)
  cases hlookup : w.collaterals.lookup colId with
  | none => simp [addCurrentValue, effectiveValueOf, hlookup, pure, Except.pure]
  | some col =>
      have hvalue : effectiveValueOf w colId = getCollateralEffectiveValue w col := by
        simp [effectiveValueOf, hlookup]
      rw [hvalue] at hsum hfits ⊢
      simp only [addCurrentValue, hlookup, I128.checkedAdd, I128.narrow_of_nonneg hsum hfits,
        Except.okOr_some]

theorem currentCollateralValue_ok {w : World} {ids : List Nat} {value : Int}
    (h : currentCollateralValue w ids = .ok value) : value = collateralValue w ids := by
  have hsum := Except.foldlM_adds (g := effectiveValueOf w) (fun _ _ _ => addCurrentValue_ok) h
  rwa [zero_add] at hsum

/-- Over sound records the loop fails only where the sum itself does not fit. -/
theorem currentCollateralValue_eq {w : World} (hsound : CollateralsSound w) (ids : List Nat)
    (hfits : collateralValue w ids ≤ I128.MAX) :
    currentCollateralValue w ids = .ok (collateralValue w ids) := by
  have hnonneg : ∀ colId ∈ ids, 0 ≤ effectiveValueOf w colId :=
    fun colId _ => effectiveValueOf_nonneg hsound colId
  have hloop := Except.foldlM_eq_sum hnonneg (fun _ _ _ => addCurrentValue_eq hsound) le_rfl
    (by rwa [zero_add, ← collateralValue])
  rwa [zero_add] at hloop

/-! ## The factor itself -/

/-- The value the factor is computed from: where the listed collateral is worth
nothing, what it was worth at origination. -/
def healthValue (w : World) (loan : LoanRecord) : Int :=
  if collateralValue w loan.collateralIds = 0 ∧ loan.totalCollateralValue > 0 then
    loan.totalCollateralValue
  else collateralValue w loan.collateralIds

/-- The ratio on which lending and liquidation decide. -/
def healthRatio (value outstanding : Int) (thr : Nat) : Int :=
  (value * thr * 10000).tdiv (outstanding * 10000)

theorem computeHealthFactorWithThr_ok {w : World} {loan : LoanRecord} {thr : Nat} {hf : Int}
    (h : computeHealthFactorWithThr w loan thr = .ok hf)
    (hdebt : loan.outstanding + loan.interestAccrued ≠ 0) :
    hf = healthRatio (healthValue w loan) loan.outstanding thr := by
  simp only [computeHealthFactorWithThr, Except.bind_succeeds, Except.okOr_eq_ok,
    I128.checkedAdd_eq_some] at h
  obtain ⟨_, ⟨-, rfl⟩, h⟩ := h
  rw [if_neg hdebt] at h
  simp only [Except.bind_succeeds, Except.okOr_eq_ok, I128.checkedMul_eq_some] at h
  obtain ⟨_, hcurrent, _, ⟨-, rfl⟩, _, ⟨-, rfl⟩, _, ⟨-, rfl⟩, hdiv⟩ := h
  obtain rfl := currentCollateralValue_ok hcurrent
  exact (I128.checkedDiv_eq_some.mp hdiv).2.2.symm

/-- The scale factors cancel: the ratio reaches 100 % exactly when the scaled
value covers the principal. -/
theorem healthRatio_ge_iff {value outstanding : Int} {thr : Nat} (hvalue : 0 ≤ value)
    (houtstanding : 0 < outstanding) :
    10000 ≤ healthRatio value outstanding thr ↔ 10000 * outstanding ≤ value * thr := by
  have hnumerator : 0 ≤ value * thr * 10000 := by positivity
  rw [healthRatio, Int.le_tdiv_iff hnumerator (by omega)]
  constructor <;> intro h <;> linarith

/-! ## A new loan -/

theorem getEffectiveOraclePrice_congr {w w' : World} (hconfig : w'.config = w.config) :
    getEffectiveOraclePrice w' = getEffectiveOraclePrice w := by
  unfold getEffectiveOraclePrice clampPrice World.getOr
  rw [hconfig]

theorem oracleMaxTotal_congr {w w' : World} (hconfig : w'.config = w.config) (count : Nat)
    (price : Int) : oracleMaxTotal w' count price = oracleMaxTotal w count price := by
  unfold oracleMaxTotal World.getOr
  rw [hconfig]

/-- Effective values depend on the configuration and on what was appraised. -/
theorem getCollateralEffectiveValue_congr {w w' : World} {col col' : CollateralRecord}
    (hconfig : w'.config = w.config) (hcount : col'.count = col.count)
    (hvalue : col'.appraisedValue = col.appraisedValue) :
    getCollateralEffectiveValue w' col' = getCollateralEffectiveValue w col := by
  simp only [getCollateralEffectiveValue, getEffectiveOraclePrice_congr hconfig,
    oracleMaxTotal_congr hconfig, hcount, hvalue]

namespace Originated

variable {env : Env} {w w' : World} {borrower : Address} {ids : List Nat} {amount total : Int}
  {c : Config} {collaterals : KeyedStore Nat CollateralRecord} {loanId : Nat}

/-- Locking does not change what collateral is worth. -/
theorem collateralValue_eq
    (h : Originated env w borrower ids amount c total collaterals w' loanId) :
    collateralValue w' ids = total := by
  rw [pledgedValue_ok h.pledged, collateralValue, collateralValue]
  congr 2
  funext colId
  rw [effectiveValueOf, effectiveValueOf, h.collateral_lookup]
  cases w.collaterals.lookup colId with
  | none => rfl
  | some col =>
      have hconfig : w'.config = w.config := h.config_after.trans h.config.symm
      simp only [Option.map_some, Option.getD_some]
      split
      · exact getCollateralEffectiveValue_congr hconfig rfl rfl
      · exact getCollateralEffectiveValue_congr hconfig rfl rfl

/-- The borrowing limit, without its division. -/
theorem scaled_amount_le (h : Originated env w borrower ids amount c total collaterals w' loanId) :
    amount * 10000 ≤ total * c.ltv :=
  Int.mul_le_of_le_tdiv h.positive (by decide) h.withinLimit

theorem total_pos (h : Originated env w borrower ids amount c total collaterals w' loanId) :
    0 < total := by
  have hscaled := h.scaled_amount_le
  have hpos := h.positive
  exact pos_of_mul_pos_left (by omega) (Int.natCast_nonneg c.ltv)

theorem healthValue_eq (h : Originated env w borrower ids amount c total collaterals w' loanId) :
    healthValue w' (newLoan w loanId borrower ids total amount) = total := by
  have hvalue : collateralValue w' (newLoan w loanId borrower ids total amount).collateralIds =
      total := h.collateralValue_eq
  -- The fallback is never taken: what was pledged is worth something.
  rw [healthValue, hvalue, if_neg]
  exact fun hzero => h.total_pos.ne' hzero.1

/-- While the threshold is not below the limit, a new loan's health is at least 100 %. -/
theorem health_ge (h : Originated env w borrower ids amount c total collaterals w' loanId)
    (hordered : c.ltv ≤ c.liqThr) {hf : Int}
    (hhealth : computeHealthFactorWithThr w' (newLoan w loanId borrower ids total amount)
      c.liqThr = .ok hf) : 10000 ≤ hf := by
  have hpos := h.positive
  have hscaled := h.scaled_amount_le
  have hthr : total * c.ltv ≤ total * c.liqThr :=
    mul_le_mul_of_nonneg_left (by exact_mod_cast hordered) h.total_pos.le
  rw [computeHealthFactorWithThr_ok hhealth (by simp only [newLoan]; omega), h.healthValue_eq]
  apply (healthRatio_ge_iff h.total_pos.le hpos).mpr
  omega

end Originated

/-- A loan granted while the threshold is not below the limit cannot be
liquidated in the world that granted it. -/
theorem new_loan_not_liquidatable {asset : AssetContract} {env : Env} {w w' : World} {c : Config}
    {borrower : Address} {ids : List Nat} {amount : Int} {loanId : Nat}
    (hc : w.config = some c) (hordered : c.ltv ≤ c.liqThr)
    (hrequest : requestLoan asset.client env w borrower ids amount = .ok (w', loanId)) :
    (∀ hf, healthFactor w' loanId = .ok hf → 10000 ≤ hf) ∧
      ∀ env' liquidator repayAmount w'',
        liquidate asset.client env' w' liquidator loanId repayAmount ≠ .ok w'' := by
  obtain ⟨c₁, total, collaterals, h⟩ := requestLoan_ok hrequest
  obtain rfl := Option.mem_unique hc h.config
  have hloan := h.stored_after
  constructor
  · intro hf hhealth
    simp only [healthFactor, Except.bind_succeeds, Except.okOr_eq_ok, World.get_eq_ok] at hhealth
    obtain ⟨_, hloan', _, ⟨c₂, hc₂, rfl⟩, hhealth⟩ := hhealth
    obtain rfl := Option.mem_unique hloan hloan'
    obtain rfl := Option.mem_unique h.config_after hc₂
    exact h.health_ge hordered hhealth
  · intro env' liquidator repayAmount w'' hliquidate
    obtain ⟨c₂, loan, hf, hl⟩ := liquidate_ok hliquidate
    obtain rfl := Option.mem_unique hloan hl.stored
    obtain rfl := Option.mem_unique h.config_after hl.config
    exact absurd (h.health_ge hordered hl.health) (not_le.mpr hl.unhealthy)

/-- The largest loan a herd worth a million allows at 60 %. -/
theorem sample_loan_not_liquidatable :
    ∃ w', requestLoan AssetContract.standard.client ⟨[Sample.farmer]⟩
        (Sample.after [Sample.initialization 6000 8000, Sample.registration 1000000])
        Sample.farmer [1] 600000 = .ok (w', 1) ∧
      (∀ hf, healthFactor w' 1 = .ok hf → 10000 ≤ hf) ∧
      ∀ env' liquidator repayAmount w'', liquidate AssetContract.standard.client env' w'
        liquidator 1 repayAmount ≠ .ok w'' := by
  have hc : (Sample.after [Sample.initialization 6000 8000,
      Sample.registration 1000000]).config = some (initialConfig Sample.admin Sample.oracle
        Sample.token Sample.treasury 6000 8000 1) := rfl
  obtain ⟨w', hrequest⟩ : ∃ w', requestLoan AssetContract.standard.client ⟨[Sample.farmer]⟩
      (Sample.after [Sample.initialization 6000 8000, Sample.registration 1000000])
      Sample.farmer [1] 600000 = .ok (w', 1) := ⟨_, rfl⟩
  exact ⟨w', hrequest, new_loan_not_liquidatable hc (by decide) hrequest⟩

end StellarKraal
