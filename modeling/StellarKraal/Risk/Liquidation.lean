import StellarKraal.Risk.HealthFactor

/-!
# Which loans can be liquidated

A loan is under water when the threshold share of its collateral no longer covers
the whole debt. The health factor compares with the principal alone, so a loan
under water only by its interest passes as safe.
-/

namespace StellarKraal

open Except (refuseIf okOr)

variable {asset : AssetContract}

/-! ## What loans list -/

/-- Every loan lists stored collateral, and at least one. -/
def LoansBacked (w : World) : Prop :=
  ∀ id loan, w.loans.lookup id = some loan → loan.collateralIds ≠ [] ∧
    ∀ colId ∈ loan.collateralIds, ∃ col, w.collaterals.lookup colId = some col

theorem KeepsPledges.loansBacked {w w' : World} (h : KeepsPledges w w') (hw : LoansBacked w) :
    LoansBacked w' := by
  intro id loan' hloan'
  obtain ⟨loan, hloan, hids, -⟩ := h.loan_before id loan' hloan'
  obtain ⟨hne, hstored⟩ := hw id loan hloan
  refine ⟨hids ▸ hne, fun colId hmem => ?_⟩
  obtain ⟨col, hcol⟩ := hstored colId (hids ▸ hmem)
  obtain ⟨col', hcol', -⟩ := h.lock_after colId col hcol
  exact ⟨col', hcol'⟩

theorem Originated.loansBacked {env : Env} {w w' : World} {borrower : Address} {ids : List Nat}
    {amount total : Int} {c : Config} {collaterals : KeyedStore Nat CollateralRecord} {loanId : Nat}
    (h : Originated env w borrower ids amount c total collaterals w' loanId)
    (hw : LoansBacked w) : LoansBacked w' := by
  have hstays : ∀ colId, (∃ col, w.collaterals.lookup colId = some col) →
      ∃ col, w'.collaterals.lookup colId = some col := by
    rintro colId ⟨col, hcol⟩
    rw [h.collateral_lookup, hcol]
    exact ⟨_, rfl⟩
  intro id loan hloan
  rw [h.loan_lookup] at hloan
  split at hloan
  next =>
    obtain rfl := Option.some.inj hloan
    exact ⟨h.nonempty, fun colId hmem =>
      hstays colId (lockCollaterals_stored h.locked colId hmem)⟩
  next =>
    obtain ⟨hne, hstored⟩ := hw id loan hloan
    exact ⟨hne, fun colId hmem => hstays colId (hstored colId hmem)⟩

theorem reachable_loansBacked {w : World} (h : (protocol asset).Reachable w) : LoansBacked w := by
  apply reachable_pledge_invariant LoansBacked (h := h)
  · intro timestamp ledger id loan hloan
    nomatch hloan
  · intro w w' hkeeps hw
    exact hkeeps.loansBacked hw
  · intro _ _ _ _ _ _ _ _ _ _ _ horiginated hw
    exact horiginated.loansBacked hw

/-- What a stored loan lists is worth something. -/
theorem collateralValue_pos {w : World} (hsound : CollateralsSound w) {ids : List Nat}
    (hne : ids ≠ []) (hstored : ∀ colId ∈ ids, ∃ col, w.collaterals.lookup colId = some col) :
    0 < collateralValue w ids := by
  cases ids with
  | nil => contradiction
  | cons head tail =>
      obtain ⟨col, hcol⟩ := hstored head List.mem_cons_self
      have hhead : 0 < effectiveValueOf w head := by
        simpa [effectiveValueOf, hcol] using getCollateralEffectiveValue_pos (hsound.sound _ _ hcol)
      have htail : 0 ≤ collateralValue w tail := collateralValue_nonneg hsound tail
      simp only [collateralValue, List.map_cons, List.sum_cons] at htail ⊢
      omega

/-! ## When the factor is computed at all -/

theorem healthValue_eq_of_pos {w : World} {loan : LoanRecord}
    (h : 0 < collateralValue w loan.collateralIds) :
    healthValue w loan = collateralValue w loan.collateralIds :=
  if_neg fun hzero => h.ne' hzero.1

/-- What fits in an `i128` when a factor was computed. -/
theorem computeHealthFactorWithThr_fits {w : World} {loan : LoanRecord} {thr : Nat} {hf : Int}
    (h : computeHealthFactorWithThr w loan thr = .ok hf)
    (hdebt : loan.outstanding + loan.interestAccrued ≠ 0) :
    loan.outstanding + loan.interestAccrued ≤ I128.MAX ∧
      healthValue w loan * thr * 10000 ≤ I128.MAX ∧ loan.outstanding * 10000 ≤ I128.MAX := by
  simp only [computeHealthFactorWithThr, Except.bind_succeeds, Except.okOr_eq_ok,
    I128.checkedAdd_eq_some] at h
  obtain ⟨_, ⟨⟨-, hfits⟩, rfl⟩, h⟩ := h
  rw [if_neg hdebt] at h
  simp only [Except.bind_succeeds, Except.okOr_eq_ok, I128.checkedMul_eq_some] at h
  obtain ⟨_, hcurrent, _, ⟨-, rfl⟩, _, ⟨⟨-, hprincipal⟩, rfl⟩, _, ⟨⟨-, hscaled⟩, rfl⟩, -⟩ := h
  obtain rfl := currentCollateralValue_ok hcurrent
  exact ⟨hfits, hscaled, hprincipal⟩

/-- Where every checked step passes, the last product and the division are left. -/
theorem computeHealthFactorWithThr_of_fits {w : World} (hsound : CollateralsSound w)
    {loan : LoanRecord} {thr : Nat} (hvalue : 0 < collateralValue w loan.collateralIds)
    (hthr : 0 < thr) (houtstanding : 0 ≤ loan.outstanding)
    (hpositive : 0 < loan.outstanding + loan.interestAccrued)
    (hdebt : loan.outstanding + loan.interestAccrued ≤ I128.MAX)
    (hprincipal : loan.outstanding * 10000 ≤ I128.MAX)
    (hfits : collateralValue w loan.collateralIds * thr ≤ I128.MAX) :
    computeHealthFactorWithThr w loan thr =
      okOr (I128.checkedMul (collateralValue w loan.collateralIds * thr) 10000) .trap >>=
        fun scaled => okOr (I128.checkedDiv scaled (loan.outstanding * 10000)) .trap := by
  have hthr : (1 : Int) ≤ thr := by exact_mod_cast hthr
  have hproduct : collateralValue w loan.collateralIds ≤
      collateralValue w loan.collateralIds * thr := le_mul_of_one_le_right hvalue.le hthr
  have hcurrent := currentCollateralValue_eq hsound loan.collateralIds (by omega)
  simp only [computeHealthFactorWithThr, I128.checkedAdd, I128.narrow_of_nonneg hpositive.le hdebt,
    Except.okOr_some, Except.bind_of_ok, if_neg hpositive.ne', hcurrent,
    if_neg (fun hzero : _ ∧ _ => hvalue.ne' hzero.1), I128.checkedMul,
    I128.narrow_of_nonneg (by omega : 0 ≤ collateralValue w loan.collateralIds * thr) hfits,
    I128.narrow_of_nonneg (by omega : 0 ≤ loan.outstanding * 10000) hprincipal]

theorem computeHealthFactorWithThr_eq {w : World} (hsound : CollateralsSound w)
    {loan : LoanRecord} {thr : Nat} (hvalue : 0 < collateralValue w loan.collateralIds)
    (hthr : 0 < thr) (houtstanding : 0 < loan.outstanding) (hinterest : 0 ≤ loan.interestAccrued)
    (hdebt : loan.outstanding + loan.interestAccrued ≤ I128.MAX)
    (hprincipal : loan.outstanding * 10000 ≤ I128.MAX)
    (hscaled : collateralValue w loan.collateralIds * thr * 10000 ≤ I128.MAX) :
    computeHealthFactorWithThr w loan thr =
      .ok (healthRatio (collateralValue w loan.collateralIds) loan.outstanding thr) := by
  have hproduct : 0 ≤ collateralValue w loan.collateralIds * thr := by positivity
  have hratio : 0 ≤ healthRatio (collateralValue w loan.collateralIds) loan.outstanding thr :=
    Int.tdiv_nonneg (by omega) (by omega)
  have hratio_le : healthRatio (collateralValue w loan.collateralIds) loan.outstanding thr ≤
      I128.MAX := (Int.tdiv_le_self _ (by omega)).trans hscaled
  rw [computeHealthFactorWithThr_of_fits hsound hvalue hthr houtstanding.le (by omega) hdebt
    hprincipal (by omega), I128.checkedMul, I128.narrow_of_nonneg (by omega) hscaled,
    Except.okOr_some, Except.bind_of_ok, I128.checkedDiv, if_neg (by omega), ← healthRatio,
    I128.narrow_of_nonneg hratio hratio_le, Except.okOr_some]

/-! ## Refusals -/

/-- The collateral loop fails in one way. -/
theorem currentCollateralValue_error {w : World} {ids : List Nat} {f : Failure}
    (h : currentCollateralValue w ids = .error f) : f = .error .invalidAmount := by
  obtain ⟨_, colId, -, hround⟩ := Except.foldlM_fails h
  simp only [addCurrentValue] at hround
  split at hround
  · exact (Except.okOr_eq_error.mp hround).2.symm
  · exact absurd hround Except.pure_ne_error

/-- The factor's own failures are overflows and traps. -/
theorem computeHealthFactorWithThr_ne_safe (w : World) (loan : LoanRecord) (thr : Nat) :
    computeHealthFactorWithThr w loan thr ≠ .error (.error .healthFactorSafe) := by
  intro h
  simp only [computeHealthFactorWithThr, Except.bind_fails, Except.okOr_eq_error,
    Failure.error.injEq, reduceCtorEq, and_false, false_or] at h
  obtain ⟨_, -, h⟩ := h
  split at h
  · exact Except.pure_ne_error h
  · simp only [Except.bind_fails, Except.okOr_eq_error, Failure.error.injEq, reduceCtorEq,
      and_false, exists_const, or_false] at h
    exact absurd (currentCollateralValue_error h) (by simp)

/-- `HealthFactorSafe` has one cause: a computed factor of at least 100 %. -/
theorem liquidate_refused_safe {env : Env} {w : World} {liquidator : Address} {loanId : Nat}
    {repayAmount : Int} (h : liquidate asset.client env w liquidator loanId repayAmount =
      .error (.error .healthFactorSafe)) :
    ∃ c loan hf, w.config = some c ∧ w.loans.lookup loanId = some loan ∧
      computeHealthFactorWithThr w loan c.liqThr = .ok hf ∧ 10000 ≤ hf := by
  have htransfer : ∀ (w : World) (token : Address), asset.client.transfer w token liquidator
      .currentContract repayAmount ≠ .error (.error .healthFactorSafe) :=
    fun w token herror => nomatch AssetContract.client_transfer_error herror
  -- One disjunct for each statement that may fail; all but one fail with another error.
  simp only [liquidate, Except.bind_fails, ReentrancyGuard.new_eq_error, ReentrancyGuard.new_eq_ok,
    assertInitialized_eq_error, assertNotPaused_eq_error, Env.requireAuth_eq_error,
    Except.refuseIf_eq_error, Except.okOr_eq_error, Except.okOr_eq_ok, World.get_eq_error,
    World.get_eq_ok, Except.pure_eq_error, computeHealthFactorWithThr_ne_safe, htransfer,
    Failure.error.injEq, reduceCtorEq, and_false, false_or, or_false, exists_false, and_true] at h
  obtain ⟨_, ⟨-, rfl⟩, _, -, _, -, _, -, _, -, _, -, loan, hloan, _, -, _, ⟨c, hc, rfl⟩, _, -,
    hf, hhealth, hsafe⟩ := h
  exact ⟨c, loan, hf, hc, hloan, hhealth, hsafe⟩

/-! ## The exact condition -/

/-- A loan under water can be liquidated, as far as its health is concerned. -/
def LiquidatableUnderWater (asset : AssetContract) (w : World) (c : Config) (loanId : Nat)
    (loan : LoanRecord) : Prop :=
  collateralValue w loan.collateralIds * c.liqThr <
      10000 * (loan.outstanding + loan.interestAccrued) →
    (∀ hf, computeHealthFactorWithThr w loan c.liqThr = .ok hf → hf < 10000) ∧
      ∀ env liquidator repayAmount, liquidate asset.client env w liquidator loanId repayAmount ≠
        .error (.error .healthFactorSafe)

/-- The threshold share covers the principal but not the whole debt, and no
product on the way to the factor overflows. -/
structure HiddenByInterest (w : World) (c : Config) (loan : LoanRecord) : Prop where
  covers_principal : 10000 * loan.outstanding ≤ collateralValue w loan.collateralIds * c.liqThr
  misses_debt : collateralValue w loan.collateralIds * c.liqThr <
    10000 * (loan.outstanding + loan.interestAccrued)
  debt_fits : loan.outstanding + loan.interestAccrued ≤ I128.MAX
  value_fits : collateralValue w loan.collateralIds * c.liqThr * 10000 ≤ I128.MAX

variable {w : World} {c : Config} {loanId : Nat} {loan : LoanRecord}

/-- The factor of a stored open loan: computed within the two bounds, and then the ratio. -/
theorem reachable_health_ge_iff (hreach : (protocol asset).Reachable w) (hc : w.config = some c)
    (hloan : w.loans.lookup loanId = some loan) (hactive : loan.status = .active) :
    (∃ hf, computeHealthFactorWithThr w loan c.liqThr = .ok hf ∧ 10000 ≤ hf) ↔
      10000 * loan.outstanding ≤ collateralValue w loan.collateralIds * c.liqThr ∧
        loan.outstanding + loan.interestAccrued ≤ I128.MAX ∧
        collateralValue w loan.collateralIds * c.liqThr * 10000 ≤ I128.MAX := by
  have hsound := reachable_collaterals hreach
  have hrecord := reachable_sound hreach _ _ hloan
  have hopen := hrecord.active_iff.mp hactive
  have hinterest := hrecord.interest_nonneg
  obtain ⟨hne, hstored⟩ := reachable_loansBacked hreach _ _ hloan
  have hvalue := collateralValue_pos hsound hne hstored
  have hhealth := healthValue_eq_of_pos hvalue
  have hdebt : loan.outstanding + loan.interestAccrued ≠ 0 := by omega
  constructor
  · rintro ⟨hf, hok, hge⟩
    obtain ⟨hdebtFits, hvalueFits, -⟩ := computeHealthFactorWithThr_fits hok hdebt
    rw [computeHealthFactorWithThr_ok hok hdebt, hhealth,
      healthRatio_ge_iff hvalue.le hopen] at hge
    exact ⟨hge, hdebtFits, hhealth ▸ hvalueFits⟩
  -- Where the share covers the principal, the denominator fits because the numerator does.
  · rintro ⟨hcovers, hdebtFits, hvalueFits⟩
    have hthr : 0 < c.liqThr := (reachable_inRange hreach c hc).liqThr_pos
    have hok := computeHealthFactorWithThr_eq hsound hvalue hthr hopen hinterest hdebtFits
      (by omega) hvalueFits
    exact ⟨_, hok, (healthRatio_ge_iff hvalue.le hopen).mpr hcovers⟩

/-- Exactly the loans hidden by their interest are under water and safe at once. -/
theorem liquidatable_under_water_iff (hreach : (protocol asset).Reachable w)
    (hc : w.config = some c) (hloan : w.loans.lookup loanId = some loan)
    (hactive : loan.status = .active) :
    LiquidatableUnderWater asset w c loanId loan ↔ ¬ HiddenByInterest w c loan := by
  have hiff := reachable_health_ge_iff hreach hc hloan hactive
  constructor
  · intro hliquidatable hhidden
    obtain ⟨hf, hok, hge⟩ :=
      hiff.mpr ⟨hhidden.covers_principal, hhidden.debt_fits, hhidden.value_fits⟩
    exact absurd ((hliquidatable hhidden.misses_debt).1 hf hok) (not_lt.mpr hge)
  · intro hvisible hunder
    have hlow : ¬ ∃ hf, computeHealthFactorWithThr w loan c.liqThr = .ok hf ∧ 10000 ≤ hf := by
      intro hsafe
      obtain ⟨hcovers, hdebtFits, hvalueFits⟩ := hiff.mp hsafe
      exact hvisible ⟨hcovers, hunder, hdebtFits, hvalueFits⟩
    refine ⟨fun hf hok => not_le.mp fun hge => hlow ⟨hf, hok, hge⟩, ?_⟩
    intro env liquidator repayAmount hrefused
    obtain ⟨c', loan', hf, hc', hloan', hok, hge⟩ := liquidate_refused_safe hrefused
    obtain rfl := Option.mem_unique hc hc'
    obtain rfl := Option.mem_unique hloan hloan'
    exact hlow ⟨hf, hok, hge⟩

/-- After a year at 10 % a loan of 600000 is far from hidden. -/
theorem sample_loan_liquidatable_under_water :
    ∃ w c loan, w.loans.lookup 1 = some loan ∧
      (LiquidatableUnderWater .standard w c 1 loan ↔ ¬ HiddenByInterest w c loan) := by
  have hreach := Sample.after_reachable
    [Sample.initialization 6000 8000, Sample.registration 1000000, Sample.request 600000,
      .tick 31536000]
  exact ⟨_, _, _, rfl, liquidatable_under_water_iff hreach rfl rfl rfl⟩

/-- Four years of interest on 600000, recorded by a payment of 1: the debt is
839999 against a threshold share of 800000, and the factor says 133 %. -/
theorem interest_hides_loan_under_water :
    ¬ ∀ (asset : AssetContract) (w : World) (c : Config) (loanId : Nat) (loan : LoanRecord),
      (protocol asset).Reachable w → w.config = some c → w.loans.lookup loanId = some loan →
        loan.status = .active → LiquidatableUnderWater asset w c loanId loan := by
  intro hall
  have hreach := Sample.after_reachable
    [Sample.initialization 6000 8000, Sample.registration 1000000, Sample.request 600000,
      .tick 126144000,
      Sample.signedBy Sample.farmer (.repayLoan Sample.farmer 1 1)]
  have hloan := hall .standard _ _ 1 _ hreach rfl rfl rfl
  exact absurd ((hloan (by decide)).1 13333 rfl) (by decide)

end StellarKraal
