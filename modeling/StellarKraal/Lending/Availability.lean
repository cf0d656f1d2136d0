import StellarKraal.Contract.Unguarded
import StellarKraal.Lending.Paused
import StellarKraal.Lending.Waterfall

/-!
# Repayment is always available

Accrual saturates, so that what it adds to a debt is bounded whatever the rate, the
balance and the time were. A debt below that bound passes every later check, and no
setting of the admin stands in the way.
-/

namespace StellarKraal

/-- The token as its standard has it: a covered transfer goes through, and nobody
holds less than nothing. -/
structure StandardToken (asset : AssetContract) (L : Ledger) : Prop where
  covered : ∀ (L : Ledger) (token sender receiver : Address) {amount : Int}, 0 ≤ amount →
    amount ≤ L token sender → ∃ L', asset.transfer L token sender receiver amount = some L'
  nonneg : ∀ token holder, 0 ≤ L token holder

variable {asset : AssetContract} {env : Env} {w : World} {c : Config} {loan : LoanRecord}
  {loanId : Nat} {amount : Int}

/-- A stored loan was granted by an initialised contract. -/
theorem reachable_loan_config (hreach : (protocol asset).Reachable w) :
    ∀ id loan, w.loans.lookup id = some loan → ∃ c, w.config = some c := by
  apply reachable_invariant
    (fun w => ∀ id loan, w.loans.lookup id = some loan → ∃ c, w.config = some c) (h := hreach)
  · intro timestamp ledger id loan hloan
    nomatch hloan
  · intro env call w w' _ hw hrun id loan hloan
    cases (Call.run_bookEffect hrun).loanCall with
    | originate h => exact ⟨_, h.config_after⟩
    | repay h => exact ⟨_, h.config_after⟩
    | liquidate h => exact ⟨_, h.config_after⟩
    | same hloans =>
        obtain ⟨c, hc⟩ := hw id loan (hloans ▸ hloan)
        obtain ⟨c', hc', -⟩ := (Call.run_configEffect hrun).keeps_token hc
        exact ⟨c', hc'⟩
  · intro w timestamp ledger hw _ _
    exact hw

/-! ## The checks -/

/-- What one accrual adds at most, after any time and at any rate. -/
theorem accrueInterest_le (bps now : Nat) (houtstanding : 0 ≤ loan.outstanding)
    (hinterest : 0 ≤ loan.interestAccrued) :
    (accrueInterest loan bps now).interestAccrued ≤
      loan.interestAccrued + I128.MAX / interestUnit := by
  have hbound : 0 ≤ I128.MAX / interestUnit := by decide
  simp only [accrueInterest]
  split
  next helapsed =>
    have hone : (1 : Int) ≤ (now - loan.lastInterestTime : Nat) := by exact_mod_cast helapsed.1
    rw [I128.mulOrMax_mulOrMax houtstanding (Int.natCast_nonneg _) hone]
    have hproduct : 0 ≤ loan.outstanding * bps * (now - loan.lastInterestTime : Nat) := by
      positivity
    have hcharge : (min (loan.outstanding * bps * (now - loan.lastInterestTime : Nat))
        I128.MAX).tdiv (10000 * 31536000) ≤ I128.MAX / interestUnit := by
      rw [Int.tdiv_eq_ediv_of_nonneg (le_min hproduct I128.MAX_pos.le)]
      exact Int.ediv_le_ediv interestUnit_pos (min_le_right _ _)
    unfold I128.saturatingAdd
    have hmin : I128.MIN ≤ 0 := by decide
    omega
  next => omega

/-- The limit under which a debt is looked at here. -/
def debtLimit : Int := 10 ^ 30

/-- No check of the split can fail on a debt within the limit. -/
theorem applyRepayment_succeeds {bps now : Nat} (hbps : bps ≤ 1000) (hpos : 0 < amount)
    (houtstanding : 0 ≤ loan.outstanding) (hinterest : 0 ≤ loan.interestAccrued)
    (hdebt : loan.debt ≤ debtLimit) :
    ∃ r, applyRepayment (accrueInterest loan bps now) amount bps = .ok r := by
  have haccrued := accrueInterest_nonneg bps now houtstanding hinterest
  have hle := accrueInterest_le bps now houtstanding hinterest
  have hsame := accrueInterest_outstanding loan bps now
  generalize accrueInterest loan bps now = accrued at haccrued hle hsame ⊢
  have hroom : debtLimit + I128.MAX / interestUnit ≤ 10 ^ 31 := by decide
  have hmax : 10 ^ 34 ≤ I128.MAX := by decide
  have hmin : I128.MIN ≤ 0 := by decide
  unfold LoanRecord.debt at hdebt
  have hsum : accrued.outstanding + accrued.interestAccrued ≤ 10 ^ 31 := by omega
  -- The treasury's share is taken of the interest paid, a part of the debt.
  have hscaled : ∀ paid : Int, 0 ≤ paid → paid ≤ 10 ^ 31 →
      0 ≤ paid * bps ∧ paid * bps ≤ 10 ^ 34 := by
    intro paid hpaid hpaid'
    have hbps' : (bps : Int) ≤ 1000 := by exact_mod_cast hbps
    have hproduct := mul_le_mul hpaid' hbps' (Int.natCast_nonneg bps) (by decide)
    exact ⟨mul_nonneg hpaid (Int.natCast_nonneg bps), hproduct.trans (by decide)⟩
  obtain ⟨hfee, hfee'⟩ := hscaled (min accrued.interestAccrued
    (min amount (accrued.outstanding + accrued.interestAccrued))) (by omega) (by omega)
  simp only [applyRepayment, I128.checkedAdd, I128.checkedSub, I128.checkedMul]
  rw [I128.narrow_of_nonneg (by omega) (by omega), Except.okOr_some, Except.bind_of_ok,
    I128.narrow_of_nonneg (by omega) (by omega), Except.okOr_some, Except.bind_of_ok,
    I128.narrow_of_nonneg (by omega) (by omega), Except.okOr_some, Except.bind_of_ok,
    I128.narrow_of_nonneg (by omega) (by omega), Except.okOr_some, Except.bind_of_ok,
    I128.narrow_of_nonneg hfee (by omega), Except.okOr_some, Except.bind_of_ok]
  exact ⟨_, rfl⟩

/-! ## The transfers -/

theorem StandardToken.transfer_succeeds (w : World) (htoken : StandardToken asset w.ledger)
    {token sender : Address} (receiver : Address) (hnonneg : 0 ≤ amount)
    (hcovered : amount ≤ w.ledger token sender) :
    asset.client.transfer w token sender receiver amount =
      .ok { w with ledger := w.ledger.move token sender receiver amount } := by
  obtain ⟨L, hL⟩ := htoken.covered _ token sender receiver hnonneg hcovered
  obtain ⟨-, -, rfl⟩ := asset.transfer_moves hL
  simp only [AssetContract.client, hL]

/-- A covered transfer leaves a standard token behind. -/
theorem StandardToken.move {L : Ledger} (htoken : StandardToken asset L) {token sender
    receiver : Address} (hnonneg : 0 ≤ amount) (hcovered : amount ≤ L token sender) :
    StandardToken asset (L.move token sender receiver amount) where
  covered := htoken.covered
  nonneg other holder := by
    have hbefore := htoken.nonneg other holder
    by_cases hsame : other = token
    · subst hsame
      rw [Ledger.move_apply]
      split_ifs with hreceiver hsender hsender
      · omega
      · omega
      · subst hsender
        omega
      · omega
    · rwa [Ledger.move_apply_of_ne _ hsame]

theorem StandardToken.collectFee_succeeds (w : World) (htoken : StandardToken asset w.ledger)
    (hc : w.config = some c) {kind : Symbol} {fee : Int}
    (hcovered : fee ≤ w.ledger c.token .currentContract) :
    ∃ w', collectFee asset.client w c.token loanId kind fee = .ok w' := by
  unfold collectFee
  split
  next hpos =>
    have htreasury : w.get (·.treasury) = .ok c.treasury := by simp [hc]
    rw [htreasury, Except.bind_of_ok, htoken.transfer_succeeds w _ hpos.le hcovered]
    exact ⟨_, rfl⟩
  next => exact ⟨_, rfl⟩

/-- What the contract is paid covers the treasury's share of it, whoever pays. -/
theorem StandardToken.share_covered {L : Ledger} (htoken : StandardToken asset L)
    {token payer : Address} {paid fee : Int} (hfee : fee ≤ paid) (hcovered : paid ≤ L token payer) :
    fee ≤ L.move token payer .currentContract paid token .currentContract := by
  have hfunds := htoken.nonneg token .currentContract
  rw [Ledger.move_apply, if_pos rfl]
  split_ifs with hself
  · subst hself
    omega
  · omega

/-- At any time, and whatever is configured, the borrower of an open loan can repay any
amount: with a standard token it takes no more than the tokens for it. -/
theorem repayment_available (hreach : (protocol asset).Reachable w)
    (htoken : StandardToken asset w.ledger) (hstored : w.loans.lookup loanId = some loan)
    (hactive : loan.status = .active) (hdebt : loan.debt ≤ debtLimit) (hpos : 0 < amount)
    (hsigned : loan.borrower ∈ env.signers) (now : Nat) :
    ∃ c, w.config = some c ∧
      ((accrueInterest loan c.intFee now).due amount ≤ w.ledger c.token loan.borrower →
        ∃ w', repayLoan asset.client env { w with timestamp := now } loan.borrower loanId amount =
          .ok w') := by
  obtain ⟨c, hc⟩ := reachable_loan_config hreach loanId loan hstored
  refine ⟨c, hc, fun hfunds => ?_⟩
  have hsound := reachable_sound hreach _ _ hstored
  have hbps : c.intFee ≤ 1000 := by
    have hmax := (reachable_inRange hreach _ hc).intFee_max
    simp only [Config.risk] at hmax
    omega
  obtain ⟨r, hr⟩ := @applyRepayment_succeeds loan amount c.intFee now hbps hpos
    hsound.outstanding_nonneg hsound.interest_nonneg hdebt
  have hsplits := applyRepayment_ok hr
  have hinterest := accrueInterest_nonneg c.intFee now hsound.outstanding_nonneg
    hsound.interest_nonneg
  obtain ⟨hrepay, hpaid, -, hprincipal, -, -⟩ :=
    hsplits.bounds hpos (hsound.active_iff.mp hactive) hinterest
  have hcovered : r.repayAmount ≤ w.ledger c.token loan.borrower := hsplits.repayAmount_eq ▸ hfunds
  have hshare : r.interestFee ≤ r.repayAmount := by
    have hle := share_le hpaid (hbps.trans (by decide))
    have hsplit := hsplits.principalPaid
    rw [hsplits.interestFee]
    omega
  have hpaidIn := htoken.transfer_succeeds { w with timestamp := now, guard := true }
    .currentContract hrepay.le hcovered
  obtain ⟨w₂, hcollected⟩ : ∃ w₂,
      collectFee asset.client _ c.token loanId "interest" r.interestFee = .ok w₂ :=
    StandardToken.collectFee_succeeds
      { w with
        timestamp := now
        guard := true
        ledger := w.ledger.move c.token loan.borrower .currentContract r.repayAmount }
      (htoken.move hrepay.le hcovered) hc (htoken.share_covered hshare hcovered)
  -- The guard is down between calls, and the pause is not looked at.
  simp only [repayLoan, Except.bind_succeeds, ReentrancyGuard.new_eq_ok, assertInitialized_eq_ok,
    Except.refuseIf_eq_ok, Env.requireAuth_eq_ok, World.get_eq_ok, Except.okOr_eq_ok,
    Except.pure_succeeds, not_le, not_not]
  exact ⟨_, _, ⟨reachable_unguarded hreach, rfl⟩, (), ⟨c, hc⟩, (), hpos, (), hsigned, loan, hstored,
    (), rfl, (), hactive, _, ⟨c, hc, rfl⟩, r, hr, _, ⟨c, hc, rfl⟩, _, hpaidIn, w₂, hcollected, rfl⟩

/-- What the origination of 600000 leaves of the sample balances. -/
theorem Sample.standardToken : StandardToken .standard
    ((world.ledger.move token .currentContract treasury 3000).move token .currentContract farmer
      597000) :=
  have hrich : StandardToken .standard world.ledger :=
    ⟨fun _ _ _ _ _ hnonneg hcovered => ⟨_, if_pos ⟨hnonneg, hcovered⟩⟩,
      fun _ _ => (by decide : (0 : Int) ≤ 1000000000000000)⟩
  (hrich.move (by decide) (by decide)).move (by decide) (by decide)

/-- Under a pause the farmer pays off all there is. -/
theorem sample_repayment_available :
    ∃ w w', (protocol .standard).Reachable w ∧ isPausedRaw { w with timestamp := 3600 } = true ∧
      repayLoan AssetContract.standard.client ⟨[Sample.farmer]⟩ { w with timestamp := 3600 }
        Sample.farmer 1 I128.MAX = .ok w' := by
  have hreach := Sample.after_reachable [Sample.initialization 6000 8000,
    Sample.registration 1000000, Sample.request 600000,
    Sample.signedBy Sample.admin (.pause Sample.admin)]
  obtain ⟨c, hc, hrepay⟩ := @repayment_available .standard ⟨[Sample.farmer]⟩ _ _ 1 I128.MAX hreach
    Sample.standardToken rfl rfl (by decide) (by decide) (by decide) 3600
  obtain rfl := Option.some.inj hc
  obtain ⟨w', hw'⟩ := hrepay (by decide)
  exact ⟨_, w', hreach, rfl, hw'⟩

end StellarKraal
