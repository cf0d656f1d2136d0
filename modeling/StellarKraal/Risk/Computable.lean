import StellarKraal.Risk.Liquidation

/-!
# When the health factor traps

Three of the products on the way to the factor are checked, the last one and the
division are not. The factor therefore traps on a loan without principal left but
with interest, and on collateral whose scaled value passes `i128::MAX`.
-/

namespace StellarKraal

open Except (refuseIf okOr)

variable {asset : AssetContract} {w : World} {c : Config} {loanId : Nat} {loan : LoanRecord}

/-- All checked steps pass, and one of the two unchecked ones does not. -/
structure HealthTraps (w : World) (c : Config) (loan : LoanRecord) : Prop where
  debt_pos : 0 < loan.outstanding + loan.interestAccrued
  debt_fits : loan.outstanding + loan.interestAccrued ≤ I128.MAX
  value_fits : collateralValue w loan.collateralIds * c.liqThr ≤ I128.MAX
  principal_fits : loan.outstanding * 10000 ≤ I128.MAX
  unchecked : loan.outstanding = 0 ∨
    I128.MAX < collateralValue w loan.collateralIds * c.liqThr * 10000

theorem computeHealthFactorWithThr_traps_iff (hsound : CollateralsSound w)
    (hvalue : 0 < collateralValue w loan.collateralIds) (hthr : 0 < c.liqThr)
    (houtstanding : 0 ≤ loan.outstanding) (hinterest : 0 ≤ loan.interestAccrued) :
    computeHealthFactorWithThr w loan c.liqThr = .error .trap ↔ HealthTraps w c loan := by
  have hproduct : 0 ≤ collateralValue w loan.collateralIds * c.liqThr := by positivity
  constructor
  · intro h
    simp only [computeHealthFactorWithThr, Except.bind_fails, Except.okOr_eq_error,
      reduceCtorEq, and_false, false_or, Except.okOr_eq_ok, I128.checkedAdd_eq_some] at h
    obtain ⟨_, ⟨⟨-, hdebt⟩, rfl⟩, h⟩ := h
    split at h
    · exact absurd h Except.pure_ne_error
    next hdebt_ne =>
      simp only [Except.bind_fails, Except.okOr_eq_error, reduceCtorEq, and_false, false_or,
        and_true, Except.okOr_eq_ok, I128.checkedMul_eq_some] at h
      rcases h with h | ⟨_, hcurrent, _, ⟨⟨-, hfits⟩, rfl⟩, _, ⟨⟨-, hprincipal⟩, rfl⟩, h⟩
      · exact absurd (currentCollateralValue_error h) (by simp)
      obtain rfl := currentCollateralValue_ok hcurrent
      rw [if_neg fun hzero => hvalue.ne' hzero.1] at hfits h
      refine ⟨by omega, hdebt, hfits, hprincipal, ?_⟩
      rcases h with hoverflow | ⟨_, ⟨⟨hmin, hscaled⟩, rfl⟩, hdiv⟩
      · exact .inr ((I128.narrow_eq_none_iff (by omega)).mp hoverflow)
      · left
        by_contra hne
        rw [I128.checkedDiv_succeeds hmin hscaled (by omega)] at hdiv
        contradiction
  · rintro ⟨hpos, hdebt, hfits, hprincipal, hunchecked⟩
    rw [computeHealthFactorWithThr_of_fits hsound hvalue hthr houtstanding hpos hdebt hprincipal
      hfits]
    rcases hunchecked with hzero | hoverflow
    · rw [hzero]
      cases I128.checkedMul (collateralValue w loan.collateralIds * c.liqThr) 10000 <;> rfl
    · rw [I128.checkedMul, (I128.narrow_eq_none_iff (by omega)).mpr hoverflow]
      rfl

/-- On a stored loan, whatever its status. -/
theorem reachable_health_traps_iff (hreach : (protocol asset).Reachable w)
    (hc : w.config = some c) (hloan : w.loans.lookup loanId = some loan) :
    computeHealthFactorWithThr w loan c.liqThr = .error .trap ↔ HealthTraps w c loan := by
  have hsound := reachable_collaterals hreach
  have hrecord := reachable_sound hreach _ _ hloan
  obtain ⟨hne, hstored⟩ := reachable_loansBacked hreach _ _ hloan
  exact computeHealthFactorWithThr_traps_iff hsound (collateralValue_pos hsound hne hstored)
    (reachable_inRange hreach c hc).liqThr_pos hrecord.outstanding_nonneg
    hrecord.interest_nonneg

theorem healthFactor_eq (hc : w.config = some c) (hloan : w.loans.lookup loanId = some loan) :
    healthFactor w loanId = computeHealthFactorWithThr w loan c.liqThr := by
  simp [healthFactor, World.get, hloan, hc]

/-- A signed liquidation traps in its health check or in the token. -/
theorem liquidate_ne_trap {client : TokenClient} {env : Env} {liquidator : Address}
    {repayAmount : Int}
    (htransfer : ∀ v token sender receiver amount,
      client.transfer v token sender receiver amount ≠ .error .trap)
    (hauth : liquidator ∈ env.signers) (hc : w.config = some c)
    (hloan : w.loans.lookup loanId = some loan)
    (hhealth : computeHealthFactorWithThr w loan c.liqThr ≠ .error .trap) :
    liquidate client env w liquidator loanId repayAmount ≠ .error .trap := by
  intro h
  -- One disjunct for each statement that may fail; those left fail in one of the four ways.
  simp only [liquidate, Except.bind_fails, ReentrancyGuard.new_eq_error, ReentrancyGuard.new_eq_ok,
    assertInitialized_eq_error, assertNotPaused_eq_error, Env.requireAuth_eq_error,
    Except.refuseIf_eq_error, Except.okOr_eq_error, Except.okOr_eq_ok, World.get_eq_error,
    World.get_eq_ok, Except.pure_eq_error, htransfer, reduceCtorEq, and_false, false_or, or_false,
    exists_false] at h
  obtain ⟨_, ⟨-, rfl⟩, _, -, _, -, _, -, h⟩ := h
  simp only [hauth, not_true_eq_false, hc, reduceCtorEq, false_and, and_false, false_or,
    exists_false, or_false] at h
  obtain ⟨_, -, _, -, found, hfound, _, -, _, ⟨c', hc', rfl⟩, _, -, htrap⟩ := h
  obtain rfl := Option.mem_unique hloan hfound
  obtain rfl := Option.some.inj hc'
  rw [← hc] at htrap
  exact hhealth htrap

/-! ## The exact condition -/

/-- The view of the factor never traps, and a signed liquidation only where the token does. -/
structure HealthComputable (w : World) (loanId : Nat) : Prop where
  view : healthFactor w loanId ≠ .error .trap
  check : ∀ client : TokenClient, (∀ v token sender receiver amount,
      client.transfer v token sender receiver amount ≠ .error .trap) →
    ∀ env liquidator repayAmount, liquidator ∈ env.signers →
      liquidate client env w liquidator loanId repayAmount ≠ .error .trap

/-- The health of a stored loan can be computed exactly where neither unchecked step fails. -/
theorem health_computable_iff (hreach : (protocol asset).Reachable w) (hc : w.config = some c)
    (hloan : w.loans.lookup loanId = some loan) :
    HealthComputable w loanId ↔ ¬ HealthTraps w c loan := by
  rw [← reachable_health_traps_iff hreach hc hloan]
  constructor
  · intro h
    rw [← healthFactor_eq hc hloan]
    exact h.view
  · intro hhealth
    refine ⟨healthFactor_eq hc hloan ▸ hhealth, ?_⟩
    intro client htransfer env liquidator repayAmount hauth
    exact liquidate_ne_trap htransfer hauth hc hloan hhealth

namespace Sample

/-- A year of interest is recorded, then the whole principal is liquidated. -/
def interestLeft : List Action :=
  [initialization 6000 8000, registration 1000000, request 600000, .tick 31536000,
    signedBy farmer (.repayLoan farmer 1 1), signedBy admin (.setCloseFactor admin 10000),
    signedBy admin (.setLiquidationThreshold admin 5000),
    signedBy keeper (.liquidate keeper 1 600000)]

end Sample

theorem sample_health_computable :
    ∃ w c loan, w.loans.lookup 1 = some loan ∧ healthFactor w 1 = .ok 13333 ∧
      (HealthComputable w 1 ↔ ¬ HealthTraps w c loan) := by
  have hreach := Sample.after_reachable
    [Sample.initialization 6000 8000, Sample.registration 1000000, Sample.request 600000]
  exact ⟨_, _, _, rfl, rfl, health_computable_iff hreach rfl rfl⟩

/-- A liquidated loan with 59999 of interest left: the divisor is zero. -/
theorem health_factor_divides_by_zero :
    ¬ ∀ (asset : AssetContract) (w : World) (loanId : Nat) (loan : LoanRecord),
      (protocol asset).Reachable w → w.loans.lookup loanId = some loan →
        HealthComputable w loanId := by
  intro hall
  have hreach := Sample.after_reachable Sample.interestLeft
  exact (hall .standard _ 1 _ hreach rfl).view rfl

end StellarKraal
