import StellarKraal.Foundation.Reentrancy
import StellarKraal.Contract.Unguarded

/-!
# Calls as the token sees them

Run for its result, a call is a function of the world. Here it is taken apart at
its transfers: what it has settled by then, the world it hands over, and how it goes
on from whatever world it gets back. A failed call keeps the world it failed in,
so that what the guard leaves behind can be told.
-/

namespace StellarKraal

open Except (refuseIf okOr)

/-- A transfer the contract asks for, and the world it asks in. -/
structure TransferRequest where
  world : World
  token : Address
  sender : Address
  receiver : Address
  amount : Int

/-- A computation on the world that hands over control at each transfer, and gets
back a world or nothing where the transfer failed. -/
abbrev Frame :=
  ExceptT Failure (StateT World (Script fun _ : TransferRequest => Option World))

namespace Frame

variable {α β : Type}

def reads (f : World → Result α) : Frame α := fun w => pure (f w, w)

def writes (f : World → World) : Frame Unit := fun w => pure (.ok (), f w)

/-- `token_client.transfer`; the caller of a failed transfer traps. -/
def transfer (token sender receiver : Address) (amount : Int) : Frame Unit := fun w =>
  .ask ⟨w, token, sender, receiver, amount⟩ fun
    | some w => pure (.ok (), w)
    | none => pure (.error .trap, w)

/-- A body with `_guard` in scope. Returning drops the guard, a trap does not. -/
def guarded (body : Frame α) : Frame α := fun w =>
  match ReentrancyGuard.new w with
  | .error f => pure (.error f, w)
  | .ok w => body w >>= fun
    | (.error .trap, w) => pure (.error .trap, w)
    | (result, w) => pure (result, ReentrancyGuard.drop w)

def collectFee (token : Address) (loanId : Nat) (kind : Symbol) (fee : Int) : Frame Unit :=
  if fee > 0 then do
    let treasury ← reads (·.get (·.treasury))
    transfer token .currentContract treasury fee
    writes (·.publish [.symbol "FeeCol", .u64 loanId] (.vec [.symbol kind, .i128 fee]))
  else pure ()

/-! ## The calls that transfer -/

/-- What `request_loan` has settled before it calls the token. -/
structure Disbursal where
  /-- The world with the loan and the locks written. -/
  world : World
  loanId : Nat
  totalCollateralValue : Int
  fee : Int
  disbursement : Int
  token : Address

/-- `request_loan` from behind the guard to its first transfer. -/
def admitLoan (env : Env) (w : World) (borrower : Address) (collateralIds : List Nat)
    (amount : Int) : Result Disbursal := do
  assertInitialized w
  assertNotPaused w
  refuseIf (amount ≤ 0) (.error .invalidAmount)
  refuseIf (collateralIds = []) (.error .collateralNotFound)
  env.requireAuth borrower
  let totalCollateralValue ← pledgedValue w borrower collateralIds
  let ltv ← w.get (·.ltv)
  let scaled ← okOr (I128.checkedMul totalCollateralValue ltv) (.error .invalidAmount)
  let maxLoan := scaled.tdiv 10000
  refuseIf (amount > maxLoan) (.error .insufficientCollateral)
  let origFeeBps ← w.get (·.origFee)
  let scaledFee ← okOr (I128.checkedMul amount origFeeBps) (.error .invalidAmount)
  let fee := scaledFee.tdiv 10000
  let disbursement ← okOr (I128.checkedSub amount fee) (.error .invalidAmount)
  let loanId ← nextId w.loanCounter
  let loan := newLoan w loanId borrower collateralIds totalCollateralValue amount
  let collaterals ← lockCollaterals w.collaterals loanId collateralIds
  let w := { w with loanCounter := loanId, loans := w.loans.insert loanId loan, collaterals }
  let token ← w.get (·.token)
  return { world := w, loanId, totalCollateralValue, fee, disbursement, token }

def requestLoan (env : Env) (borrower : Address) (collateralIds : List Nat) (amount : Int) :
    Frame Nat := guarded do
  let d ← reads (admitLoan env · borrower collateralIds amount)
  writes fun _ => d.world
  collectFee d.token d.loanId "originate" d.fee
  transfer d.token .currentContract borrower d.disbursement
  writes (·.publish [.symbol "loan", .symbol "requested"]
    (.vec [.u64 d.loanId, .address borrower, .i128 amount, .i128 d.disbursement,
      .i128 d.totalCollateralValue]))
  return d.loanId

/-- `repay_loan` from behind the guard to its first transfer. -/
def admitRepayment (env : Env) (w : World) (borrower : Address) (loanId : Nat) (amount : Int) :
    Result (Repayment × Address) := do
  assertInitialized w
  refuseIf (amount ≤ 0) (.error .invalidAmount)
  env.requireAuth borrower
  let loan ← okOr (w.loans.lookup loanId) (.error .loanNotFound)
  refuseIf (loan.borrower ≠ borrower) (.error .unauthorized)
  refuseIf (loan.status ≠ .active) (.error .loanAlreadyClosed)
  let intFeeBps ← w.get (·.intFee)
  let r ← applyRepayment (accrueInterest loan intFeeBps w.timestamp) amount intFeeBps
  let token ← w.get (·.token)
  return (r, token)

def repayLoan (env : Env) (borrower : Address) (loanId : Nat) (amount : Int) : Frame Unit :=
  guarded do
    let (r, token) ← reads (admitRepayment env · borrower loanId amount)
    transfer token borrower .currentContract r.repayAmount
    collectFee token loanId "interest" r.interestFee
    -- The loan read before the transfers goes over whatever is stored by now.
    let loan := closeIfRepaid r.loan
    writes fun w => { w with loans := w.loans.insert loanId loan }.publish
      [.symbol "loan_repaid", .address borrower]
      (.vec [.u64 loanId, .i128 r.principalPaid, .i128 r.interestPaid, .i128 loan.outstanding])

/-- `liquidate` from behind the guard to its transfer. -/
def admitLiquidation (env : Env) (w : World) (liquidator : Address) (loanId : Nat)
    (repayAmount : Int) : Result (LoanRecord × Address) := do
  assertInitialized w
  assertNotPaused w
  refuseIf (repayAmount ≤ 0) (.error .invalidAmount)
  env.requireAuth liquidator
  refuseIf (w.wlCount > 0 ∧ liquidator ∉ w.whitelist) (.error .liquidatorNotWhitelisted)
  let loan ← okOr (w.loans.lookup loanId) (.error .loanNotFound)
  refuseIf (loan.status ≠ .active) (.error .loanAlreadyClosed)
  let liqThr ← w.get (·.liqThr)
  let closeFactor ← w.get (·.closeFactor)
  let hf ← computeHealthFactorWithThr w loan liqThr
  refuseIf (hf ≥ 10000) (.error .healthFactorSafe)
  let scaled ← okOr (I128.checkedMul loan.outstanding closeFactor) (.error .invalidAmount)
  let maxRepay := scaled.tdiv 10000
  refuseIf (repayAmount > maxRepay) (.error .exceedsCloseFactor)
  let token ← w.get (·.token)
  return (loan, token)

def liquidate (env : Env) (liquidator : Address) (loanId : Nat) (repayAmount : Int) : Frame Unit :=
  guarded do
    let (loan, token) ← reads (admitLiquidation env · liquidator loanId repayAmount)
    transfer token liquidator .currentContract repayAmount
    -- A typed error after the token has been called.
    let outstanding ← reads fun _ =>
      okOr (I128.checkedSub loan.outstanding repayAmount) (.error .invalidAmount)
    let loan := closeIfLiquidated { loan with outstanding }
    writes fun w => { w with loans := w.loans.insert loanId loan }.publish
      [.symbol "loan", .symbol "liquidated"]
      (.vec [.u64 loanId, .address liquidator, .i128 repayAmount, .i128 loan.outstanding,
        loan.status.toScVal])

def emergencyWithdraw (env : Env) (admin recipient : Address) : Frame Unit := do
  reads (requireAdmin env · admin)
  reads fun w => refuseIf (isPausedRaw w = false) (.error .notPaused)
  let token ← reads (·.get (·.token))
  let balance ← reads fun w => .ok (w.ledger token .currentContract)
  if balance > 0 then transfer token .currentContract recipient balance else pure ()
  writes (·.publish [.symbol "emergency"] (.vec [.address recipient, .i128 balance]))

/-- A computation that reaches no token. Where it fails it gives back the world it got. -/
def atOnce (f : World → Result World) : Frame Unit := fun w =>
  match f w with
  | .ok w => pure (.ok (), w)
  | .error f => pure (.error f, w)

end Frame

/-- All calls but four come to an end without the token, whatever it is. -/
def Call.frame (env : Env) : Call → Frame Unit
  | .requestLoan borrower ids amount => do
      let _ ← Frame.requestLoan env borrower ids amount
  | .repayLoan borrower loanId amount => Frame.repayLoan env borrower loanId amount
  | .liquidate liquidator loanId amount => Frame.liquidate env liquidator loanId amount
  | .emergencyWithdraw admin recipient => Frame.emergencyWithdraw env admin recipient
  | call => .atOnce (call.run AssetContract.standard.client env)

theorem Call.frame_eq_atOnce {env : Env} {call : Call} (client : TokenClient)
    (h : call.callsToken = false) : call.frame env = .atOnce (call.run client env) := by
  have hrun : call.frame env = .atOnce (call.run AssetContract.standard.client env) := by
    cases call with
    | requestLoan | repayLoan | liquidate | emergencyWithdraw => contradiction
    | _ => rfl
  rw [hrun]
  exact congrArg Frame.atOnce (funext fun w => run_client_eq client h)

/-! ## The split

Each call's function is what it settles first, then its transfers and the rest. -/

section

variable (client : TokenClient) (env : Env) (w : World)

theorem requestLoan_split (borrower : Address) (ids : List Nat) (amount : Int) :
    requestLoan client env w borrower ids amount = do
      let w ← ReentrancyGuard.new w
      let d ← Frame.admitLoan env w borrower ids amount
      let w ← collectFee client d.world d.token d.loanId "originate" d.fee
      let w ← client.transfer w d.token .currentContract borrower d.disbursement
      let w := w.publish [.symbol "loan", .symbol "requested"]
        (.vec [.u64 d.loanId, .address borrower, .i128 amount, .i128 d.disbursement,
          .i128 d.totalCollateralValue])
      return (ReentrancyGuard.drop w, d.loanId) := by
  simp only [requestLoan, Frame.admitLoan, bind_assoc, pure_bind]

theorem admitLoan_ok {env : Env} {w : World} {borrower : Address} {ids : List Nat} {amount : Int}
    {d : Frame.Disbursal} (h : Frame.admitLoan env w borrower ids amount = .ok d) :
    d.world.guard = w.guard ∧ ∃ c, d.world.config = some c := by
  simp only [Frame.admitLoan, Except.bind_succeeds, assertInitialized_eq_ok,
    Except.pure_succeeds] at h
  obtain ⟨_, ⟨c, hc⟩, _, -, _, -, _, -, _, -, _, -, _, -, _, -, _, -, _, -, _, -, _, -, _, -, _, -,
    _, -, rfl⟩ := h
  exact ⟨rfl, c, hc⟩

theorem repayLoan_split (borrower : Address) (loanId : Nat) (amount : Int) :
    repayLoan client env w borrower loanId amount = do
      let w ← ReentrancyGuard.new w
      let (r, token) ← Frame.admitRepayment env w borrower loanId amount
      let w ← client.transfer w token borrower .currentContract r.repayAmount
      let w ← collectFee client w token loanId "interest" r.interestFee
      let loan := closeIfRepaid r.loan
      let w := { w with loans := w.loans.insert loanId loan }.publish
        [.symbol "loan_repaid", .address borrower]
        (.vec [.u64 loanId, .i128 r.principalPaid, .i128 r.interestPaid, .i128 loan.outstanding])
      return ReentrancyGuard.drop w := by
  simp only [repayLoan, Frame.admitRepayment, bind_assoc, pure_bind]

theorem admitRepayment_ok {env : Env} {w : World} {borrower : Address} {loanId : Nat}
    {amount : Int} {r : Repayment × Address}
    (h : Frame.admitRepayment env w borrower loanId amount = .ok r) :
    ∃ c, w.config = some c := by
  simp only [Frame.admitRepayment, Except.bind_succeeds, assertInitialized_eq_ok] at h
  obtain ⟨_, hc, -⟩ := h
  exact hc

theorem liquidate_split (liquidator : Address) (loanId : Nat) (repayAmount : Int) :
    liquidate client env w liquidator loanId repayAmount = do
      let w ← ReentrancyGuard.new w
      let (loan, token) ← Frame.admitLiquidation env w liquidator loanId repayAmount
      let w ← client.transfer w token liquidator .currentContract repayAmount
      let outstanding ← okOr (I128.checkedSub loan.outstanding repayAmount) (.error .invalidAmount)
      let loan := closeIfLiquidated { loan with outstanding }
      let w := { w with loans := w.loans.insert loanId loan }.publish
        [.symbol "loan", .symbol "liquidated"]
        (.vec [.u64 loanId, .address liquidator, .i128 repayAmount, .i128 loan.outstanding,
          loan.status.toScVal])
      return ReentrancyGuard.drop w := by
  simp only [liquidate, Frame.admitLiquidation, bind_assoc, pure_bind]

end

/-! ## Over an asset contract

With an asset contract for the token, a frame comes to the result the call's
function has. -/

def AssetContract.answer (asset : AssetContract) (r : TransferRequest) : Option World :=
  (asset.client.transfer r.world r.token r.sender r.receiver r.amount).toOption

/-- Such an answer changes nothing but balances. -/
theorem AssetContract.answer_ok {asset : AssetContract} {r : TransferRequest} {w : World}
    (h : asset.answer r = some w) : ∃ ledger, w = { r.world with ledger } := by
  unfold answer at h
  cases htransfer : asset.client.transfer r.world r.token r.sender r.receiver r.amount with
  | error f => simp [htransfer, Except.toOption] at h
  | ok w' =>
      rw [htransfer] at h
      obtain rfl := Option.some.inj h
      exact ⟨_, (AssetContract.client_transfer_ok htransfer).2.2⟩

namespace Frame

variable {α β : Type} (asset : AssetContract)

/-- A frame's result; the world of a failed one is dropped. -/
def withAsset (x : Frame α) (w : World) : Result (α × World) :=
  match (x w).answered asset.answer with
  | (.ok a, w) => .ok (a, w)
  | (.error f, _) => .error f

theorem answered_of_withAsset_ok {x : Frame α} {w w' : World} {a : α}
    (h : x.withAsset asset w = .ok (a, w')) : (x w).answered asset.answer = (.ok a, w') := by
  unfold withAsset at h
  split at h
  next a _ heq =>
    obtain ⟨rfl, rfl⟩ := Prod.mk.inj (Except.ok.inj h)
    exact heq
  next => contradiction

theorem answered_of_withAsset_error {x : Frame α} {w : World} {f : Failure}
    (h : x.withAsset asset w = .error f) : ∃ w', (x w).answered asset.answer = (.error f, w') := by
  unfold withAsset at h
  split at h
  next => contradiction
  next w' heq =>
    obtain rfl := Except.error.inj h
    exact ⟨w', heq⟩

theorem bind_apply (x : Frame α) (f : α → Frame β) (w : World) :
    (x >>= f) w = x w >>= fun
      | (.ok a, w) => f a w
      | (.error f, w) => pure (.error f, w) := by
  refine congrArg (x w >>= ·) (funext fun p => ?_)
  obtain ⟨_ | _, _⟩ := p <;> rfl

@[simp] theorem withAsset_pure (a : α) (w : World) :
    (pure a : Frame α).withAsset asset w = .ok (a, w) := rfl

@[simp] theorem withAsset_reads (f : World → Result α) (w : World) :
    (reads f).withAsset asset w = f w >>= fun a => .ok (a, w) := by
  simp only [withAsset, reads, Script.answered_pure]
  cases f w <;> rfl

@[simp] theorem withAsset_writes (f : World → World) (w : World) :
    (writes f).withAsset asset w = .ok ((), f w) := rfl

@[simp] theorem withAsset_bind (x : Frame α) (f : α → Frame β) (w : World) :
    (x >>= f).withAsset asset w = x.withAsset asset w >>= fun p => (f p.1).withAsset asset p.2 := by
  simp only [withAsset, bind_apply, Script.answered_bind]
  rcases (x w).answered asset.answer with ⟨_ | _, _⟩ <;> rfl

@[simp] theorem withAsset_transfer (token sender receiver : Address) (amount : Int) (w : World) :
    (transfer token sender receiver amount).withAsset asset w =
      asset.client.transfer w token sender receiver amount >>= fun w => .ok ((), w) := by
  simp only [withAsset, transfer, Script.answered, AssetContract.answer]
  cases h : asset.client.transfer w token sender receiver amount with
  | ok w' => rfl
  | error f =>
      obtain rfl := AssetContract.client_transfer_error h
      rfl

@[simp] theorem withAsset_guarded (body : Frame α) (w : World) :
    (guarded body).withAsset asset w = do
      let w ← ReentrancyGuard.new w
      let (a, w) ← body.withAsset asset w
      return (a, ReentrancyGuard.drop w) := by
  simp only [withAsset, guarded]
  cases ReentrancyGuard.new w with
  | error f => rfl
  | ok w =>
      simp only [Script.answered_bind, Except.bind_of_ok]
      rcases (body w).answered asset.answer with ⟨(_ | _) | _, _⟩ <;> rfl

theorem withAsset_collectFee (token : Address) (loanId : Nat) (kind : Symbol) (fee : Int)
    (w : World) :
    (collectFee token loanId kind fee).withAsset asset w =
      StellarKraal.collectFee asset.client w token loanId kind fee >>= fun w => .ok ((), w) := by
  unfold collectFee StellarKraal.collectFee
  split
  · simp only [withAsset_bind, withAsset_reads, withAsset_transfer, withAsset_writes, bind_assoc,
      Except.bind_of_ok]
    rfl
  · rfl

theorem withAsset_requestLoan (env : Env) (borrower : Address) (ids : List Nat) (amount : Int)
    (w : World) :
    (requestLoan env borrower ids amount).withAsset asset w =
      StellarKraal.requestLoan asset.client env w borrower ids amount >>= fun p =>
        .ok (p.2, p.1) := by
  simp only [requestLoan, requestLoan_split, withAsset_guarded, withAsset_bind, withAsset_reads,
    withAsset_writes, withAsset_collectFee, withAsset_transfer, withAsset_pure, bind_assoc,
    Except.bind_of_ok]
  rfl

theorem withAsset_repayLoan (env : Env) (borrower : Address) (loanId : Nat) (amount : Int)
    (w : World) :
    (repayLoan env borrower loanId amount).withAsset asset w =
      StellarKraal.repayLoan asset.client env w borrower loanId amount >>= fun w =>
        .ok ((), w) := by
  simp only [repayLoan, repayLoan_split, withAsset_guarded, withAsset_bind, withAsset_reads,
    withAsset_writes, withAsset_collectFee, withAsset_transfer, bind_assoc, Except.bind_of_ok]
  rfl

theorem withAsset_liquidate (env : Env) (liquidator : Address) (loanId : Nat) (amount : Int)
    (w : World) :
    (liquidate env liquidator loanId amount).withAsset asset w =
      StellarKraal.liquidate asset.client env w liquidator loanId amount >>= fun w =>
        .ok ((), w) := by
  simp only [liquidate, liquidate_split, withAsset_guarded, withAsset_bind,
    withAsset_reads, withAsset_writes, withAsset_transfer, bind_assoc, Except.bind_of_ok]
  rfl

theorem withAsset_emergencyWithdraw (env : Env) (admin recipient : Address) (w : World) :
    (emergencyWithdraw env admin recipient).withAsset asset w =
      StellarKraal.emergencyWithdraw asset.client env w admin recipient >>= fun w =>
        .ok ((), w) := by
  simp only [emergencyWithdraw, StellarKraal.emergencyWithdraw, withAsset_bind, withAsset_reads,
    bind_assoc, Except.bind_of_ok]
  refine bind_congr fun _ => bind_congr fun _ => bind_congr fun token => ?_
  by_cases hbalance : w.ledger token .currentContract > 0
  · rw [if_pos hbalance, if_pos (show asset.client.balance w token .currentContract > 0
      from hbalance)]
    simp only [withAsset_bind, withAsset_transfer, withAsset_writes, bind_assoc, Except.bind_of_ok]
    rfl
  · rw [if_neg hbalance, if_neg (show ¬ asset.client.balance w token .currentContract > 0
      from hbalance)]
    rfl

end Frame

/-- Over an asset contract the frame is the call. -/
theorem Call.frame_withAsset (asset : AssetContract) (env : Env) (call : Call) (w : World) :
    (call.frame env).withAsset asset w = call.run asset.client env w >>= fun w => .ok ((), w) := by
  cases htoken : call.callsToken with
  | false =>
      rw [Call.frame_eq_atOnce asset.client htoken]
      simp only [Frame.withAsset, Frame.atOnce]
      cases call.run asset.client env w <;> rfl
  | true =>
      cases call with
      | requestLoan =>
          simp only [Call.frame, Call.run, Frame.withAsset_bind, Frame.withAsset_requestLoan,
            bind_assoc]
          rfl
      | repayLoan => exact Frame.withAsset_repayLoan ..
      | liquidate => exact Frame.withAsset_liquidate ..
      | emergencyWithdraw => exact Frame.withAsset_emergencyWithdraw ..
      | _ => contradiction

end StellarKraal
