import StellarKraal.Risk.HealthFactor

/-!
# The oracle's ceiling on loans

Owners appraise their own animals. While a price is recorded, a loan is granted
against what the price allows for the listed animals, whatever was declared and
whenever: the valuation is capped at the time of the request. Its products
saturate, which only lowers the cap.
-/

namespace StellarKraal

variable {w : World} {c : Config} {price : Int}

/-- The price of one animal with the tolerance `DEV_BPS`, rounded down. -/
def toleratedPrice (c : Config) (price : Int) : Int := price * (10000 + c.devBps) / 10000

/-- What `unit` for each animal allows for the collateral stored under an id. -/
def oracleAllowance (w : World) (unit : Int) (colId : Nat) : Int :=
  ((w.collaterals.lookup colId).map fun col => col.count * unit).getD 0

theorem oracleMaxTotal_le (hc : w.config = some c) (hprice : 0 < price) (count : Nat) :
    oracleMaxTotal w count price ≤ count * toleratedPrice c price := by
  have hfactor : ((10000 + c.devBps : Nat) : Int) = 10000 + c.devBps := by push_cast; rfl
  have hproduct : 0 ≤ price * (10000 + c.devBps : Int) := by positivity
  have hunit : (I128.mulOrMax price (10000 + c.devBps : Int)).tdiv 10000 ≤
      toleratedPrice c price := by
    rw [toleratedPrice, ← Int.tdiv_eq_ediv_of_nonneg hproduct]
    exact Int.tdiv_le_tdiv (by decide) (I128.mulOrMax_le hproduct)
  have hunit_nonneg : 0 ≤ (I128.mulOrMax price (10000 + c.devBps : Int)).tdiv 10000 :=
    Int.tdiv_nonneg (I128.mulOrMax_nonneg hprice.le (by positivity)) (by decide)
  simp only [oracleMaxTotal, World.getOr, hc, Option.map_some, Option.getD_some, hfactor]
  calc I128.mulOrMax count _
      ≤ count * (I128.mulOrMax price (10000 + c.devBps : Int)).tdiv 10000 :=
        I128.mulOrMax_le (mul_nonneg (Int.natCast_nonneg count) hunit_nonneg)
    _ ≤ count * toleratedPrice c price :=
        mul_le_mul_of_nonneg_left hunit (Int.natCast_nonneg count)

/-- A recorded price caps what any collateral counts for, whatever was appraised. -/
theorem effectiveValueOf_le (hc : w.config = some c)
    (hprice : getEffectiveOraclePrice w = some price) (colId : Nat) :
    effectiveValueOf w colId ≤ oracleAllowance w (toleratedPrice c price) colId := by
  unfold effectiveValueOf oracleAllowance
  cases w.collaterals.lookup colId with
  | none => exact le_rfl
  | some col =>
      have hcap := oracleMaxTotal_le hc (getEffectiveOraclePrice_pos hprice) col.count
      simp only [Option.map_some, Option.getD_some, getCollateralEffectiveValue, hprice]
      split
      next => exact hcap
      next hbelow => exact (not_lt.mp hbelow).trans hcap

theorem collateralValue_le (hc : w.config = some c)
    (hprice : getEffectiveOraclePrice w = some price) (ids : List Nat) :
    collateralValue w ids ≤ (ids.map (oracleAllowance w (toleratedPrice c price))).sum := by
  apply List.sum_le_sum
  intro colId _
  exact effectiveValueOf_le hc hprice colId

/-- No appraisal gets a borrower more than the oracle allows: in any world with a
recorded price, a granted loan stays within the limit on the allowance of what it
lists, each collateral counted as often as it is listed. -/
theorem loan_within_oracle_ceiling {asset : AssetContract} {env : Env} {w' : World}
    {borrower : Address} {ids : List Nat} {amount : Int} {loanId : Nat}
    (hc : w.config = some c) (hprice : getEffectiveOraclePrice w = some price)
    (hrequest : requestLoan asset.client env w borrower ids amount = .ok (w', loanId)) :
    amount * 10000 ≤
      c.ltv * (ids.map (oracleAllowance w (toleratedPrice c price))).sum := by
  obtain ⟨c', total, collaterals, h⟩ := requestLoan_ok hrequest
  obtain rfl := Option.mem_unique hc h.config
  have htotal := collateralValue_le hc hprice ids
  rw [← pledgedValue_ok h.pledged] at htotal
  calc amount * 10000
      ≤ total * c.ltv := h.scaled_amount_le
    _ = c.ltv * total := mul_comm _ _
    _ ≤ c.ltv * (ids.map (oracleAllowance w (toleratedPrice c price))).sum :=
        mul_le_mul_of_nonneg_left htotal (Int.natCast_nonneg c.ltv)

/-- Ten cattle declared at a million before a price of 100 was known count for 1200:
a loan of 720 at 60 %. -/
theorem sample_loan_within_oracle_ceiling :
    ∃ w c w', w.config = some c ∧ getEffectiveOraclePrice w = some 100 ∧
      requestLoan AssetContract.standard.client ⟨[Sample.farmer]⟩ w Sample.farmer [1] 720 =
        .ok (w', 1) ∧
      (720 : Int) * 10000 ≤
        c.ltv * (([1] : List Nat).map (oracleAllowance w (toleratedPrice c 100))).sum := by
  have hc : (Sample.after [Sample.initialization 6000 8000, Sample.registration 1000000,
      Sample.signedBy Sample.oracle (.submitPrice Sample.oracle 100)]).config = some _ := rfl
  obtain ⟨w', hrequest⟩ : ∃ w', requestLoan AssetContract.standard.client ⟨[Sample.farmer]⟩
      (Sample.after [Sample.initialization 6000 8000, Sample.registration 1000000,
        Sample.signedBy Sample.oracle (.submitPrice Sample.oracle 100)])
      Sample.farmer [1] 720 = .ok (w', 1) := ⟨_, rfl⟩
  exact ⟨_, _, w', hc, rfl, hrequest, loan_within_oracle_ceiling hc rfl hrequest⟩

end StellarKraal
