import StellarKraal.Contract.Administration
import StellarKraal.Contract.Lending

/-!
# What a successful lending call did

One inversion per guarded entry point, over a standard asset contract. Each
gives every check that passed and the whole world afterwards, so that later
results never unfold the entry points again.
-/

namespace StellarKraal

open Except (refuseIf okOr)

/-- The balances after `fee`, where positive, went from the contract to the treasury. -/
def Ledger.payFee (L : Ledger) (c : Config) (fee : Int) : Ledger :=
  if fee > 0 then L.move c.token .currentContract c.treasury fee else L

/-- The event that goes with a positive fee. -/
def feeEvents (kind : Symbol) (loanId : Nat) (fee : Int) : List Event :=
  if fee > 0 then [⟨[.symbol "FeeCol", .u64 loanId], .vec [.symbol kind, .i128 fee]⟩] else []

theorem collectFee_ok {asset : AssetContract} {w w' : World} {loanId : Nat} {kind : Symbol}
    {fee : Int} {c : Config} (h : collectFee asset.client w c.token loanId kind fee = .ok w')
    (hc : w.config = some c) :
    w' = { w with
      ledger := w.ledger.payFee c fee, events := w.events ++ feeEvents kind loanId fee } := by
  unfold collectFee at h
  split at h
  next hfee =>
    simp only [Except.bind_succeeds, World.get_eq_ok, Except.pure_succeeds] at h
    obtain ⟨_, ⟨c', hc', rfl⟩, _, htransfer, rfl⟩ := h
    obtain rfl := Option.mem_unique hc hc'
    obtain ⟨-, -, rfl⟩ := AssetContract.client_transfer_ok htransfer
    simp [World.publish, Ledger.payFee, feeEvents, hfee]
  next hfee =>
    obtain rfl := Except.pure_succeeds.mp h
    simp [Ledger.payFee, feeEvents, hfee]

/-! ## request_loan -/

/-- The treasury's share at origination. -/
def originationFee (c : Config) (amount : Int) : Int := (amount * c.origFee).tdiv 10000

/-- A successful `request_loan` against collateral worth `total`. -/
structure Originated (env : Env) (w : World) (borrower : Address) (ids : List Nat)
    (amount : Int) (c : Config) (total : Int) (collaterals : KeyedStore Nat CollateralRecord)
    (w' : World) (loanId : Nat) : Prop where
  unguarded : w.guard = false
  config : w.config = some c
  notPaused : isPausedRaw w = false
  positive : 0 < amount
  nonempty : ids ≠ []
  authorized : borrower ∈ env.signers
  pledged : pledgedValue w borrower ids = .ok total
  withinLimit : amount ≤ (total * c.ltv).tdiv 10000
  loanId_eq : loanId = w.loanCounter + 1
  locked : lockCollaterals w.collaterals loanId ids = .ok collaterals
  world : w' = { w with
    guard := false
    loanCounter := loanId
    loans := w.loans.insert loanId (newLoan w loanId borrower ids total amount)
    collaterals := collaterals
    ledger := (w.ledger.payFee c (originationFee c amount)).move c.token .currentContract
      borrower (amount - originationFee c amount)
    events := w.events ++ feeEvents "originate" loanId (originationFee c amount) ++
      [⟨[.symbol "loan", .symbol "requested"],
        .vec [.u64 loanId, .address borrower, .i128 amount,
          .i128 (amount - originationFee c amount), .i128 total]⟩] }

theorem requestLoan_ok {asset : AssetContract} {env : Env} {w w' : World} {borrower : Address}
    {ids : List Nat} {amount : Int} {loanId : Nat}
    (h : requestLoan asset.client env w borrower ids amount = .ok (w', loanId)) :
    ∃ c total collaterals, Originated env w borrower ids amount c total collaterals w' loanId := by
  simp only [requestLoan, Except.bind_succeeds, ReentrancyGuard.new_eq_ok, assertInitialized_eq_ok,
    assertNotPaused_eq_ok, Except.refuseIf_eq_ok, Env.requireAuth_eq_ok, World.get_eq_ok,
    Except.okOr_eq_ok, I128.checkedMul_eq_some, I128.checkedSub_eq_some, nextId_eq_ok,
    Except.pure_succeeds, not_le, not_lt] at h
  obtain ⟨_, ⟨hguard, rfl⟩, _, ⟨c, hc⟩, _, hpaused, _, hpos, _, hids, _, hauth, total, htotal,
    _, ⟨c₁, hc₁, rfl⟩, _, ⟨_, rfl⟩, _, hlimit, _, ⟨c₂, hc₂, rfl⟩, _, ⟨_, rfl⟩, _, ⟨_, rfl⟩,
    _, ⟨_, rfl⟩, collaterals, hlocked, _, ⟨c₃, hc₃, rfl⟩, charged, hcharged, paid, hpaid,
    hresult⟩ := h
  obtain rfl := Option.mem_unique hc hc₁
  obtain rfl := Option.mem_unique hc hc₂
  obtain rfl := Option.mem_unique hc hc₃
  obtain rfl := collectFee_ok hcharged hc
  obtain ⟨-, -, rfl⟩ := AssetContract.client_transfer_ok hpaid
  simp only [Prod.mk.injEq] at hresult
  obtain ⟨rfl, rfl⟩ := hresult
  exact ⟨c, total, collaterals, hguard, hc, hpaused, hpos, hids, hauth, htotal, hlimit, rfl,
    hlocked, rfl⟩

theorem Originated.config_after {env : Env} {w w' : World} {borrower : Address} {ids : List Nat}
    {amount : Int} {c : Config} {total : Int} {collaterals : KeyedStore Nat CollateralRecord}
    {loanId : Nat} (h : Originated env w borrower ids amount c total collaterals w' loanId) :
    w'.config = some c := by
  rw [h.world]
  exact h.config

theorem Originated.stored_after {env : Env} {w w' : World} {borrower : Address} {ids : List Nat}
    {amount : Int} {c : Config} {total : Int} {collaterals : KeyedStore Nat CollateralRecord}
    {loanId : Nat} (h : Originated env w borrower ids amount c total collaterals w' loanId) :
    w'.loans.lookup loanId = some (newLoan w loanId borrower ids total amount) := by
  rw [h.world]
  exact AList.lookup_insert w.loans

/-! ## repay_loan -/

/-- The split of a repayment, as equations between its parts. -/
structure Repayment.Splits (r : Repayment) (loan : LoanRecord) (amount : Int) (intFeeBps : Nat) :
    Prop where
  debtFits : loan.outstanding + loan.interestAccrued ≤ I128.MAX
  repayAmount : r.repayAmount = min amount (loan.outstanding + loan.interestAccrued)
  interestPaid : r.interestPaid = min loan.interestAccrued r.repayAmount
  principalPaid : r.principalPaid = r.repayAmount - r.interestPaid
  interestFee : r.interestFee = (r.interestPaid * intFeeBps).tdiv 10000
  loan : r.loan = { loan with
    interestAccrued := loan.interestAccrued - r.interestPaid
    outstanding := loan.outstanding - r.principalPaid }

theorem applyRepayment_ok {loan : LoanRecord} {amount : Int} {intFeeBps : Nat} {r : Repayment}
    (h : applyRepayment loan amount intFeeBps = .ok r) : r.Splits loan amount intFeeBps := by
  simp only [applyRepayment, Except.bind_succeeds, Except.okOr_eq_ok, I128.checkedAdd_eq_some,
    I128.checkedSub_eq_some, I128.checkedMul_eq_some, Except.pure_succeeds] at h
  obtain ⟨_, ⟨⟨-, hfits⟩, rfl⟩, _, ⟨-, rfl⟩, _, ⟨-, rfl⟩, _, ⟨-, rfl⟩, _, ⟨-, rfl⟩, rfl⟩ := h
  exact ⟨hfits, rfl, rfl, rfl, rfl, rfl⟩

/-- A successful `repay_loan` on the stored `loan`, split as `r`. -/
structure RepaidBy (env : Env) (w : World) (borrower : Address) (loanId : Nat) (amount : Int)
    (c : Config) (loan : LoanRecord) (r : Repayment) (w' : World) : Prop where
  unguarded : w.guard = false
  config : w.config = some c
  positive : 0 < amount
  authorized : borrower ∈ env.signers
  stored : w.loans.lookup loanId = some loan
  owner : loan.borrower = borrower
  active : loan.status = .active
  split : applyRepayment (accrueInterest loan c.intFee w.timestamp) amount c.intFee = .ok r
  world : w' = { w with
    guard := false
    loans := w.loans.insert loanId (closeIfRepaid r.loan)
    ledger := (w.ledger.move c.token borrower .currentContract r.repayAmount).payFee c
      r.interestFee
    events := w.events ++ feeEvents "interest" loanId r.interestFee ++
      [⟨[.symbol "loan_repaid", .address borrower],
        .vec [.u64 loanId, .i128 r.principalPaid, .i128 r.interestPaid,
          .i128 (closeIfRepaid r.loan).outstanding]⟩] }

theorem repayLoan_ok {asset : AssetContract} {env : Env} {w w' : World} {borrower : Address}
    {loanId : Nat} {amount : Int}
    (h : repayLoan asset.client env w borrower loanId amount = .ok w') :
    ∃ c loan r, RepaidBy env w borrower loanId amount c loan r w' := by
  simp only [repayLoan, Except.bind_succeeds, ReentrancyGuard.new_eq_ok, assertInitialized_eq_ok,
    Except.refuseIf_eq_ok, Env.requireAuth_eq_ok, World.get_eq_ok, Except.okOr_eq_ok,
    Except.pure_succeeds, not_le, not_not] at h
  obtain ⟨_, ⟨hguard, rfl⟩, _, ⟨c, hc⟩, _, hpos, _, hauth, loan, hloan, _, howner, _, hactive,
    _, ⟨c₁, hc₁, rfl⟩, r, hr, _, ⟨c₂, hc₂, rfl⟩, taken, htaken, charged, hcharged, rfl⟩ := h
  obtain rfl := Option.mem_unique hc hc₁
  obtain rfl := Option.mem_unique hc hc₂
  obtain ⟨-, -, rfl⟩ := AssetContract.client_transfer_ok htaken
  obtain rfl := collectFee_ok hcharged hc
  exact ⟨c, loan, r, hguard, hc, hpos, hauth, hloan, howner, hactive, hr, rfl⟩

theorem RepaidBy.splits {env : Env} {w w' : World} {borrower : Address} {loanId : Nat}
    {amount : Int} {c : Config} {loan : LoanRecord} {r : Repayment}
    (h : RepaidBy env w borrower loanId amount c loan r w') :
    r.Splits (accrueInterest loan c.intFee w.timestamp) amount c.intFee :=
  applyRepayment_ok h.split

theorem RepaidBy.config_after {env : Env} {w w' : World} {borrower : Address} {loanId : Nat}
    {amount : Int} {c : Config} {loan : LoanRecord} {r : Repayment}
    (h : RepaidBy env w borrower loanId amount c loan r w') : w'.config = some c := by
  rw [h.world]
  exact h.config

theorem RepaidBy.stored_after {env : Env} {w w' : World} {borrower : Address} {loanId : Nat}
    {amount : Int} {c : Config} {loan : LoanRecord} {r : Repayment}
    (h : RepaidBy env w borrower loanId amount c loan r w') :
    w'.loans.lookup loanId = some (closeIfRepaid r.loan) := by
  rw [h.world]
  exact AList.lookup_insert w.loans

/-! ## liquidate -/

/-- A successful `liquidate` on the stored `loan`, at health factor `hf`. -/
structure LiquidatedBy (env : Env) (w : World) (liquidator : Address) (loanId : Nat)
    (repayAmount : Int) (c : Config) (loan : LoanRecord) (hf : Int) (w' : World) : Prop where
  unguarded : w.guard = false
  config : w.config = some c
  notPaused : isPausedRaw w = false
  positive : 0 < repayAmount
  authorized : liquidator ∈ env.signers
  whitelisted : 0 < w.wlCount → liquidator ∈ w.whitelist
  stored : w.loans.lookup loanId = some loan
  active : loan.status = .active
  health : computeHealthFactorWithThr w loan c.liqThr = .ok hf
  unhealthy : hf < 10000
  withinCloseFactor : repayAmount ≤ (loan.outstanding * c.closeFactor).tdiv 10000
  world : w' = { w with
    guard := false
    loans := w.loans.insert loanId
      (closeIfLiquidated { loan with outstanding := loan.outstanding - repayAmount })
    ledger := w.ledger.move c.token liquidator .currentContract repayAmount
    events := w.events ++
      [⟨[.symbol "loan", .symbol "liquidated"],
        .vec [.u64 loanId, .address liquidator, .i128 repayAmount,
          .i128 (closeIfLiquidated
            { loan with outstanding := loan.outstanding - repayAmount }).outstanding,
          (closeIfLiquidated
            { loan with outstanding := loan.outstanding - repayAmount }).status.toScVal]⟩] }

theorem liquidate_ok {asset : AssetContract} {env : Env} {w w' : World} {liquidator : Address}
    {loanId : Nat} {repayAmount : Int}
    (h : liquidate asset.client env w liquidator loanId repayAmount = .ok w') :
    ∃ c loan hf, LiquidatedBy env w liquidator loanId repayAmount c loan hf w' := by
  simp only [liquidate, Except.bind_succeeds, ReentrancyGuard.new_eq_ok, assertInitialized_eq_ok,
    assertNotPaused_eq_ok, Except.refuseIf_eq_ok, Env.requireAuth_eq_ok, World.get_eq_ok,
    Except.okOr_eq_ok, I128.checkedMul_eq_some, I128.checkedSub_eq_some, Except.pure_succeeds,
    not_le, not_lt, not_and, not_not] at h
  obtain ⟨_, ⟨hguard, rfl⟩, _, ⟨c, hc⟩, _, hpaused, _, hpos, _, hauth, _, hlisted, loan, hloan,
    _, hactive, _, ⟨c₁, hc₁, rfl⟩, _, ⟨c₂, hc₂, rfl⟩, hf, hhf, _, hunhealthy, _, ⟨_, rfl⟩, _,
    hcap, _, ⟨c₃, hc₃, rfl⟩, taken, htaken, _, ⟨_, rfl⟩, rfl⟩ := h
  obtain rfl := Option.mem_unique hc hc₁
  obtain rfl := Option.mem_unique hc hc₂
  obtain rfl := Option.mem_unique hc hc₃
  obtain ⟨-, -, rfl⟩ := AssetContract.client_transfer_ok htaken
  exact ⟨c, loan, hf, hguard, hc, hpaused, hpos, hauth, hlisted, hloan, hactive, hhf, hunhealthy,
    hcap, rfl⟩

theorem LiquidatedBy.config_after {env : Env} {w w' : World} {liquidator : Address} {loanId : Nat}
    {repayAmount : Int} {c : Config} {loan : LoanRecord} {hf : Int}
    (h : LiquidatedBy env w liquidator loanId repayAmount c loan hf w') : w'.config = some c := by
  rw [h.world]
  exact h.config

theorem LiquidatedBy.stored_after {env : Env} {w w' : World} {liquidator : Address}
    {loanId : Nat} {repayAmount : Int} {c : Config} {loan : LoanRecord} {hf : Int}
    (h : LiquidatedBy env w liquidator loanId repayAmount c loan hf w') :
    w'.loans.lookup loanId = some
      (closeIfLiquidated { loan with outstanding := loan.outstanding - repayAmount }) := by
  rw [h.world]
  exact AList.lookup_insert w.loans

/-! ## emergency_withdraw -/

theorem emergencyWithdraw_ok {asset : AssetContract} {env : Env} {w w' : World}
    {admin recipient : Address}
    (h : emergencyWithdraw asset.client env w admin recipient = .ok w') :
    ∃ c, w.config = some c ∧ c.admin = admin ∧ admin ∈ env.signers ∧ isPausedRaw w = true ∧
      w' = { w with
        ledger :=
          if w.ledger c.token .currentContract > 0 then
            w.ledger.move c.token .currentContract recipient
              (w.ledger c.token .currentContract)
          else w.ledger
        events := w.events ++ [⟨[.symbol "emergency"],
          .vec [.address recipient, .i128 (w.ledger c.token .currentContract)]⟩] } := by
  simp only [emergencyWithdraw, Except.bind_succeeds, requireAdmin_eq_ok, Except.refuseIf_eq_ok,
    World.get_eq_ok, Bool.not_eq_false] at h
  obtain ⟨_, ⟨c, hc, hadmin, hauth⟩, _, hpaused, _, ⟨c₁, hc₁, rfl⟩, h⟩ := h
  obtain rfl := Option.mem_unique hc hc₁
  refine ⟨c, hc, hadmin, hauth, hpaused, ?_⟩
  split at h
  next hbalance =>
    simp only [Except.bind_succeeds, Except.pure_succeeds] at h
    obtain ⟨_, hdrained, rfl⟩ := h
    obtain ⟨-, -, rfl⟩ := AssetContract.client_transfer_ok hdrained
    rw [if_pos (show w.ledger c.token .currentContract > 0 from hbalance)]
    rfl
  next hbalance =>
    simp only [Except.bind_succeeds, Except.pure_succeeds] at h
    obtain ⟨_, rfl, rfl⟩ := h
    rw [if_neg (show ¬ w.ledger c.token .currentContract > 0 from hbalance)]
    rfl

end StellarKraal
