import StellarKraal.Contract.Pricing

/-!
# Requesting, repaying and liquidating loans

The three guarded entry points. Loops and the pure arithmetic of each are named
helpers; the reads, token calls and writes stand in the source's order.
-/

namespace StellarKraal

open Except (refuseIf okOr)

/-- A positive fee goes to the treasury and is announced; both fees are collected so. -/
def collectFee (client : TokenClient) (w : World) (token : Address) (loanId : Nat)
    (kind : Symbol) (fee : Int) : Result World :=
  if fee > 0 then do
    let treasury ← w.get (·.treasury)
    let w ← client.transfer w token .currentContract treasury fee
    return w.publish [.symbol "FeeCol", .u64 loanId] (.vec [.symbol kind, .i128 fee])
  else pure w

/-! ## request_loan -/

/-- One round of the first collateral loop: ownership and total value. -/
def addPledgedValue (w : World) (borrower : Address) (total : Int) (colId : Nat) :
    Result Int := do
  let collateral ← okOr (w.collaterals.lookup colId) (.error .collateralNotFound)
  refuseIf (collateral.owner ≠ borrower) (.error .unauthorized)
  -- The lock in `loanId` is not looked at, and an id may be listed twice.
  okOr (I128.checkedAdd total (getCollateralEffectiveValue w collateral)) (.error .invalidAmount)

def pledgedValue (w : World) (borrower : Address) (collateralIds : List Nat) : Result Int :=
  collateralIds.foldlM (addPledgedValue w borrower) 0

/-- The second collateral loop: every listed record is locked to the loan. -/
def lockCollaterals (collaterals : KeyedStore Nat CollateralRecord) (loanId : Nat)
    (collateralIds : List Nat) : Result (KeyedStore Nat CollateralRecord) :=
  collateralIds.foldlM (fun collaterals colId => do
    -- An `unwrap`; the first loop has found every listed record.
    let col ← okOr (collaterals.lookup colId) .trap
    return collaterals.insert colId { col with loanId }) collaterals

/-- The record `request_loan` stores. -/
def newLoan (w : World) (loanId : Nat) (borrower : Address) (collateralIds : List Nat)
    (totalCollateralValue amount : Int) : LoanRecord where
  id := loanId
  borrower := borrower
  collateralIds := collateralIds
  totalCollateralValue := totalCollateralValue
  principal := amount
  outstanding := amount
  interestAccrued := 0
  lastInterestTime := w.timestamp
  status := .active

def requestLoan (client : TokenClient) (env : Env) (w : World) (borrower : Address)
    (collateralIds : List Nat) (amount : Int) : Result (World × Nat) := do
  let w ← ReentrancyGuard.new w
  assertInitialized w
  assertNotPaused w
  refuseIf (amount ≤ 0) (.error .invalidAmount)
  refuseIf (collateralIds = []) (.error .collateralNotFound)
  env.requireAuth borrower
  let totalCollateralValue ← pledgedValue w borrower collateralIds
  let ltv ← w.get (·.ltv)
  let scaled ← okOr (I128.checkedMul totalCollateralValue ltv) (.error .invalidAmount)
  let maxLoan := scaled.tdiv 10000
  refuseIf (amount > maxLoan) (.error .insufficientCollateral)
  let origFeeBps ← w.get (·.origFee)
  let scaledFee ← okOr (I128.checkedMul amount origFeeBps) (.error .invalidAmount)
  let fee := scaledFee.tdiv 10000
  let disbursement ← okOr (I128.checkedSub amount fee) (.error .invalidAmount)
  let loanId ← nextId w.loanCounter
  let loan := newLoan w loanId borrower collateralIds totalCollateralValue amount
  let collaterals ← lockCollaterals w.collaterals loanId collateralIds
  -- All writes come before the token is called; `repayLoan` and `liquidate` call it first.
  let w := { w with loanCounter := loanId, loans := w.loans.insert loanId loan, collaterals }
  let token ← w.get (·.token)
  let w ← collectFee client w token loanId "originate" fee
  let w ← client.transfer w token .currentContract borrower disbursement
  let w := w.publish [.symbol "loan", .symbol "requested"]
    (.vec [.u64 loanId, .address borrower, .i128 amount, .i128 disbursement,
      .i128 totalCollateralValue])
  return (ReentrancyGuard.drop w, loanId)

/-! ## repay_loan -/

/-- Interest over the time since the last accrual, at the rate and balance of
now; both products saturate. -/
def accrueInterest (loan : LoanRecord) (intFeeBps now : Nat) : LoanRecord :=
  let elapsed := now - loan.lastInterestTime
  let interestAccrued :=
    if elapsed > 0 ∧ loan.outstanding > 0 then
      let accrued := (I128.mulOrMax (I128.mulOrMax loan.outstanding intFeeBps) elapsed).tdiv
        (10000 * 31536000)
      I128.saturatingAdd loan.interestAccrued accrued
    else loan.interestAccrued
  { loan with interestAccrued, lastInterestTime := now }

/-- How one repayment is split, and the record it leaves. -/
structure Repayment where
  repayAmount : Int
  interestPaid : Int
  principalPaid : Int
  interestFee : Int
  loan : LoanRecord

/-- The waterfall: interest first, then principal, and the treasury's share of
the interest. -/
def applyRepayment (loan : LoanRecord) (amount : Int) (intFeeBps : Nat) : Result Repayment := do
  let effectiveOutstanding ← okOr (I128.checkedAdd loan.outstanding loan.interestAccrued)
    (.error .invalidAmount)
  let repayAmount := min amount effectiveOutstanding
  let interestPaid := min loan.interestAccrued repayAmount
  let interestAccrued ← okOr (I128.checkedSub loan.interestAccrued interestPaid)
    (.error .invalidAmount)
  let principalPaid ← okOr (I128.checkedSub repayAmount interestPaid) (.error .invalidAmount)
  let outstanding ← okOr (I128.checkedSub loan.outstanding principalPaid) (.error .invalidAmount)
  let scaledFee ← okOr (I128.checkedMul interestPaid intFeeBps) (.error .invalidAmount)
  return {
    repayAmount, interestPaid, principalPaid
    interestFee := scaledFee.tdiv 10000
    loan := { loan with interestAccrued, outstanding } }

/-- A loan with nothing left to pay is closed as repaid. -/
def closeIfRepaid (loan : LoanRecord) : LoanRecord :=
  if loan.outstanding = 0 ∧ loan.interestAccrued = 0 then { loan with status := .repaid } else loan

def repayLoan (client : TokenClient) (env : Env) (w : World) (borrower : Address) (loanId : Nat)
    (amount : Int) : Result World := do
  let w ← ReentrancyGuard.new w
  assertInitialized w
  -- No check of the pause: what is owed can always be paid back.
  refuseIf (amount ≤ 0) (.error .invalidAmount)
  env.requireAuth borrower
  let loan ← okOr (w.loans.lookup loanId) (.error .loanNotFound)
  refuseIf (loan.borrower ≠ borrower) (.error .unauthorized)
  refuseIf (loan.status ≠ .active) (.error .loanAlreadyClosed)
  let intFeeBps ← w.get (·.intFee)
  let r ← applyRepayment (accrueInterest loan intFeeBps w.timestamp) amount intFeeBps
  let token ← w.get (·.token)
  let w ← client.transfer w token borrower .currentContract r.repayAmount
  let w ← collectFee client w token loanId "interest" r.interestFee
  let loan := closeIfRepaid r.loan
  let w := { w with loans := w.loans.insert loanId loan }.publish
    [.symbol "loan_repaid", .address borrower]
    (.vec [.u64 loanId, .i128 r.principalPaid, .i128 r.interestPaid, .i128 loan.outstanding])
  return ReentrancyGuard.drop w

/-! ## liquidate -/

/-- A unit variant of a contract enum is a vector with its name. -/
def LoanStatus.toScVal : LoanStatus → ScVal
  | .active => .vec [.symbol "Active"]
  | .repaid => .vec [.symbol "Repaid"]
  | .liquidated => .vec [.symbol "Liquidated"]

/-- A loan without principal left is closed as liquidated. -/
def closeIfLiquidated (loan : LoanRecord) : LoanRecord :=
  if loan.outstanding = 0 then { loan with status := .liquidated } else loan

def liquidate (client : TokenClient) (env : Env) (w : World) (liquidator : Address) (loanId : Nat)
    (repayAmount : Int) : Result World := do
  let w ← ReentrancyGuard.new w
  assertInitialized w
  assertNotPaused w
  refuseIf (repayAmount ≤ 0) (.error .invalidAmount)
  env.requireAuth liquidator
  refuseIf (w.wlCount > 0 ∧ liquidator ∉ w.whitelist) (.error .liquidatorNotWhitelisted)
  let loan ← okOr (w.loans.lookup loanId) (.error .loanNotFound)
  refuseIf (loan.status ≠ .active) (.error .loanAlreadyClosed)
  let liqThr ← w.get (·.liqThr)
  let closeFactor ← w.get (·.closeFactor)
  let hf ← computeHealthFactorWithThr w loan liqThr
  refuseIf (hf ≥ 10000) (.error .healthFactorSafe)
  let scaled ← okOr (I128.checkedMul loan.outstanding closeFactor) (.error .invalidAmount)
  let maxRepay := scaled.tdiv 10000
  refuseIf (repayAmount > maxRepay) (.error .exceedsCloseFactor)
  let token ← w.get (·.token)
  let w ← client.transfer w token liquidator .currentContract repayAmount
  let outstanding ← okOr (I128.checkedSub loan.outstanding repayAmount) (.error .invalidAmount)
  -- Interest and `lastInterestTime` stay as they are: nothing is accrued on the old balance.
  let loan := closeIfLiquidated { loan with outstanding }
  let w := { w with loans := w.loans.insert loanId loan }.publish
    [.symbol "loan", .symbol "liquidated"]
    (.vec [.u64 loanId, .address liquidator, .i128 repayAmount, .i128 loan.outstanding,
      loan.status.toScVal])
  return ReentrancyGuard.drop w

end StellarKraal
