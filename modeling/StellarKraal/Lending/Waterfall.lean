import StellarKraal.Lending.PoolValue
import StellarKraal.Lending.Interest

/-!
# The repayment waterfall

`repay_loan` accrues, caps the payment at the debt, pays the interest before the
principal, and closes the loan when nothing is left. Between the token call and
the record nothing is lost: the debt falls by what the borrower hands over.
-/

namespace StellarKraal

/-- All that is owed on a loan. -/
def LoanRecord.debt (loan : LoanRecord) : Int := loan.outstanding + loan.interestAccrued

/-- What a payment of `amount` takes at most: the debt. -/
def LoanRecord.due (loan : LoanRecord) (amount : Int) : Int := min amount loan.debt

/-- The stored `loan` after a repayment of `amount` at the time of `w`, with
`accrued` the record once interest was accrued up to then. -/
structure Waterfall (w : World) (c : Config) (borrower : Address) (loanId : Nat) (amount : Int)
    (accrued : LoanRecord) (w' : World) (loan' : LoanRecord) : Prop where
  /-- One transfer from the borrower, then the treasury's share out of the contract. -/
  transfers : ∃ fee, 0 ≤ fee ∧ fee ≤ accrued.interestAccrued ∧
    w'.ledger = (w.ledger.move c.token borrower .currentContract (accrued.due amount)).payFee c fee
  taken : borrower ≠ .currentContract → borrower ≠ c.treasury →
    w'.ledger c.token borrower = w.ledger c.token borrower - accrued.due amount
  stored : w'.loans.lookup loanId = some loan'
  interestFirst : loan'.interestAccrued =
    accrued.interestAccrued - min accrued.interestAccrued (accrued.due amount)
  principalLast : loan'.outstanding ≤ accrued.outstanding ∧
    (loan'.outstanding < accrued.outstanding → loan'.interestAccrued = 0)
  conserved : loan'.debt = accrued.debt - accrued.due amount
  closes : loan'.status = .repaid ↔ accrued.debt ≤ amount
  staysOpen : amount < accrued.debt → loan'.status = .active
  clock : loan'.lastInterestTime = w.timestamp
  otherLoans : ∀ id, id ≠ loanId → w'.loans.lookup id = w.loans.lookup id
  collaterals : w'.collaterals = w.collaterals

/-- A loan is closed as repaid exactly when nothing is owed on it. -/
theorem closeIfRepaid_status {loan : LoanRecord} (hactive : loan.status = .active)
    (houtstanding : 0 ≤ loan.outstanding) (hinterest : 0 ≤ loan.interestAccrued) :
    ((closeIfRepaid loan).status = .repaid ↔ loan.debt = 0) ∧
      (loan.debt ≠ 0 → (closeIfRepaid loan).status = .active) := by
  have hnothing : loan.outstanding = 0 ∧ loan.interestAccrued = 0 ↔ loan.debt = 0 := by
    unfold LoanRecord.debt
    omega
  unfold closeIfRepaid
  split
  next hpaid =>
    have hzero := hnothing.mp hpaid
    exact ⟨iff_of_true rfl hzero, fun hne => absurd hzero hne⟩
  next howed =>
    have hne := mt hnothing.mpr howed
    exact ⟨iff_of_false (by simp [hactive]) hne, fun _ => hactive⟩

/-- A fee moves nothing between two parties other than the contract and the treasury. -/
theorem Ledger.payFee_aside (L : Ledger) {c : Config} {holder : Address} (fee : Int)
    (hcontract : holder ≠ .currentContract) (htreasury : holder ≠ c.treasury) :
    L.payFee c fee c.token holder = L c.token holder := by
  unfold Ledger.payFee
  split
  · simp [Ledger.move_apply, hcontract, htreasury]
  · rfl

namespace Repayment.Splits

variable {r : Repayment} {loan : LoanRecord} {amount : Int} {bps : Nat}

theorem repayAmount_eq (h : r.Splits loan amount bps) : r.repayAmount = loan.due amount :=
  h.repayAmount

/-- What is paid leaves the debt, whichever part of it. -/
theorem debt_eq (h : r.Splits loan amount bps) : r.loan.debt = loan.debt - loan.due amount := by
  have hprincipal := h.principalPaid
  have hrepay := h.repayAmount_eq
  rw [h.loan]
  simp only [LoanRecord.debt] at hrepay ⊢
  omega

/-- Nothing is left exactly when the cap was the debt. -/
theorem debt_eq_zero_iff (h : r.Splits loan amount bps) : r.loan.debt = 0 ↔ loan.debt ≤ amount := by
  rw [h.debt_eq, LoanRecord.due]
  omega

theorem interest_eq (h : r.Splits loan amount bps) : r.loan.interestAccrued =
    loan.interestAccrued - min loan.interestAccrued (loan.due amount) := by
  rw [h.loan, ← h.repayAmount_eq, ← h.interestPaid]

/-- Both parts only fall, and the principal only once the interest is gone. -/
theorem principal_last (h : r.Splits loan amount bps) (hpos : 0 < amount)
    (houtstanding : 0 < loan.outstanding) (hinterest : 0 ≤ loan.interestAccrued) :
    0 ≤ r.loan.outstanding ∧ 0 ≤ r.loan.interestAccrued ∧
      r.loan.outstanding ≤ loan.outstanding ∧
      (r.loan.outstanding < loan.outstanding → r.loan.interestAccrued = 0) := by
  obtain ⟨-, -, hile, hppos, hple, hfirst⟩ := h.bounds hpos houtstanding hinterest
  rw [h.loan]
  refine ⟨sub_nonneg.mpr hple, sub_nonneg.mpr hile, sub_le_self _ hppos, ?_⟩
  intro hfalls
  have hpaid : 0 < r.principalPaid := by
    have hfalls : loan.outstanding - r.principalPaid < loan.outstanding := hfalls
    omega
  exact sub_eq_zero.mpr (hfirst hpaid).symm

end Repayment.Splits

variable {asset : AssetContract} {env : Env} {w w' : World} {borrower : Address} {loanId : Nat}
  {amount : Int} {c : Config} {loan : LoanRecord}

theorem RepaidBy.waterfall {r : Repayment} (h : RepaidBy env w borrower loanId amount c loan r w')
    (hsound : loan.Sound) (hrange : c.risk.InRange) :
    Waterfall w c borrower loanId amount (accrueInterest loan c.intFee w.timestamp) w'
      (closeIfRepaid r.loan) := by
  have hsplits := h.splits
  have hopen := hsound.active_iff.mp h.active
  have hinterest := accrueInterest_nonneg c.intFee w.timestamp
    hsound.outstanding_nonneg hsound.interest_nonneg
  obtain ⟨-, -, hshare, -⟩ := hsplits.bounds h.positive hopen hinterest
  obtain ⟨hleft, hunpaid, hfalls, hlast⟩ := hsplits.principal_last h.positive hopen hinterest
  obtain ⟨hfee, hfee_le⟩ := h.fee_bounds hsound hrange
  have hledger : w'.ledger = (w.ledger.move c.token borrower .currentContract
      ((accrueInterest loan c.intFee w.timestamp).due amount)).payFee c r.interestFee := by
    rw [h.world, ← hsplits.repayAmount_eq]
  have hactive : r.loan.status = .active := by
    rw [hsplits.loan]
    exact h.active
  obtain ⟨hclosed, hkept⟩ := closeIfRepaid_status hactive hleft hunpaid
  refine ⟨⟨r.interestFee, hfee, hfee_le.trans hshare, hledger⟩, ?_, h.stored_after, ?_, ?_, ?_,
    hclosed.trans hsplits.debt_eq_zero_iff, ?_, ?_, ?_, ?_⟩
  · intro hcontract htreasury
    rw [hledger, Ledger.payFee_aside _ _ hcontract htreasury, Ledger.move_apply,
      if_neg hcontract, if_pos rfl, add_zero]
  · rw [closeIfRepaid_interestAccrued, hsplits.interest_eq]
  · rw [closeIfRepaid_outstanding, closeIfRepaid_interestAccrued]
    exact ⟨hfalls, hlast⟩
  · rw [LoanRecord.debt, closeIfRepaid_outstanding, closeIfRepaid_interestAccrued]
    exact hsplits.debt_eq
  · intro hshort
    exact hkept fun hzero => absurd (hsplits.debt_eq_zero_iff.mp hzero) (not_le.mpr hshort)
  · rw [closeIfRepaid_lastInterestTime, hsplits.loan]
    rfl
  · intro id hne
    rw [h.world, AList.lookup_insert_ne hne]
  · rw [h.world]

/-- Whatever amount is paid on a stored loan: no more than the debt is taken, and
all of it reduces the debt, interest first; the loan is closed if and only if the
amount covers the debt; nothing else in the book changes. -/
theorem repayment_waterfall (hreach : (protocol asset).Reachable w) (hc : w.config = some c)
    (hloan : w.loans.lookup loanId = some loan)
    (hrepay : repayLoan asset.client env w borrower loanId amount = .ok w') :
    ∃ loan', Waterfall w c borrower loanId amount (accrueInterest loan c.intFee w.timestamp)
      w' loan' := by
  obtain ⟨c₁, loan₁, r, h⟩ := repayLoan_ok hrepay
  obtain rfl := Option.mem_unique hc h.config
  obtain rfl := Option.mem_unique hloan h.stored
  exact ⟨_, h.waterfall (reachable_sound hreach _ _ hloan) (reachable_inRange hreach _ hc)⟩

/-- Half a million at 10 % for a year, and a payment of 60000: the 50000 of interest
go first. -/
theorem sample_repayment_waterfall :
    ∃ w w' c loan, w.loans.lookup 1 = some loan ∧
      repayLoan AssetContract.standard.client ⟨[Sample.farmer]⟩ w Sample.farmer 1 60000 =
        .ok w' ∧
      (accrueInterest loan c.intFee w.timestamp).debt = 550000 ∧
      (∃ loan', Waterfall w c Sample.farmer 1 60000 (accrueInterest loan c.intFee w.timestamp)
        w' loan') ∧
      (w'.loans.lookup 1).map (·.outstanding) = some 490000 := by
  have hreach := Sample.after_reachable [Sample.initialization 6000 8000,
    Sample.registration 1000000, Sample.request 500000, .tick 31536000]
  have hrepay : repayLoan AssetContract.standard.client ⟨[Sample.farmer]⟩
      (Sample.after [Sample.initialization 6000 8000, Sample.registration 1000000,
        Sample.request 500000, .tick 31536000]) Sample.farmer 1 60000 = .ok _ := rfl
  exact ⟨_, _, _, _, rfl, hrepay, rfl, repayment_waterfall hreach rfl rfl hrepay, rfl⟩

end StellarKraal
