import StellarKraal.Contract.Host

/-!
# Oracle prices, collateral values and the health factor
-/

namespace StellarKraal

open Except (refuseIf okOr)

/-- The circuit breaker: a positive bound is enforced, a zero one is unset. -/
def clampPrice (w : World) (price : Int) : Int :=
  let priceMax := w.getOr (·.priceMax) 0
  let priceMin := w.getOr (·.priceMin) 0
  let capped := if priceMax > 0 ∧ price > priceMax then priceMax else price
  if priceMin > 0 ∧ capped < priceMin then priceMin else capped

def getEffectiveOraclePrice (w : World) : Option Int :=
  let twap := w.getOr (·.twapPrice) 0
  let last := w.getOr (·.lastPrice) 0
  -- The age of the last price is not looked at.
  let price := if twap > 0 then twap else last
  if price ≤ 0 then none else some (clampPrice w price)

/-- The most `count` animals may be worth at `oraclePrice`, the tolerance
`DEV_BPS` included. The three valuations of the source share this computation. -/
def oracleMaxTotal (w : World) (count : Nat) (oraclePrice : Int) : Int :=
  let devBps := w.getOr (·.devBps) 2000
  let oracleMaxUnit := (I128.mulOrMax oraclePrice ((10000 + devBps : Nat) : Int)).tdiv 10000
  I128.mulOrMax (count : Int) oracleMaxUnit

def getCollateralEffectiveValue (w : World) (collateral : CollateralRecord) : Int :=
  match getEffectiveOraclePrice w with
  | some oraclePrice =>
      if collateral.appraisedValue > oracleMaxTotal w collateral.count oraclePrice then
        oracleMaxTotal w collateral.count oraclePrice
      else collateral.appraisedValue
  | none => collateral.appraisedValue

/-- One round of the health factor's collateral loop: a missing record is
skipped, an overflowing sum is refused. -/
def addCurrentValue (w : World) (value : Int) (colId : Nat) : Result Int :=
  match w.collaterals.lookup colId with
  | some collateral =>
      okOr (I128.checkedAdd value (getCollateralEffectiveValue w collateral))
        (.error .invalidAmount)
  | none => pure value

def currentCollateralValue (w : World) (collateralIds : List Nat) : Result Int :=
  collateralIds.foldlM (addCurrentValue w) 0

def computeHealthFactorWithThr (w : World) (loan : LoanRecord) (liqThr : Nat) : Result Int := do
  let totalDebt ← okOr (I128.checkedAdd loan.outstanding loan.interestAccrued)
    (.error .invalidAmount)
  if totalDebt = 0 then pure I128.MAX
  else
    let current ← currentCollateralValue w loan.collateralIds
    let value :=
      if current = 0 ∧ loan.totalCollateralValue > 0 then loan.totalCollateralValue else current
    let numerator ← okOr (I128.checkedMul value liqThr) (.error .invalidAmount)
    let denominator ← okOr (I128.checkedMul loan.outstanding 10000) (.error .invalidAmount)
    -- The last product and the division are unchecked: overflow and a zero divisor trap.
    let scaled ← okOr (I128.checkedMul numerator 10000) .trap
    okOr (I128.checkedDiv scaled denominator) .trap

def healthFactor (w : World) (loanId : Nat) : Result Int := do
  let loan ← okOr (w.loans.lookup loanId) (.error .loanNotFound)
  let liqThr ← w.get (·.liqThr)
  computeHealthFactorWithThr w loan liqThr

end StellarKraal
