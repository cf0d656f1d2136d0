import StellarKraal.Contract.Protocol
import Mathlib.Logic.Function.Basic

/-!
# The event log as a reader decodes it

Every kind of event the contract publishes, read back from its topics and its
data, and what reading one of them does to a book kept outside the contract.
-/

namespace StellarKraal

/-- What an event tells. -/
inductive Notice
  | requested (loanId : Nat) (borrower : Address) (amount disbursement totalCollateralValue : Int)
  | repaid (borrower : Address) (loanId : Nat) (principalPaid interestPaid outstanding : Int)
  | liquidated (loanId : Nat) (liquidator : Address) (repayAmount outstanding : Int)
      (status : LoanStatus)
  | feeCollected (loanId : Nat) (kind : Symbol) (fee : Int)
  | withdrawn (recipient : Address) (balance : Int)
  | registered (id : Nat) (owner : Address) (animalType : Symbol) (count : Nat)
      (appraisedValue : Int)
  | appraised (id : Nat) (newValue : Int)
  | whitelisted (liquidator : Address)
  | unlisted (liquidator : Address)
  | paused (expiresAt : Nat)
  | unpaused
  | capped (animalType : Symbol) (maxValue : Int)
  | adminProposed (newAdmin : Address)
  | adminChanged (newAdmin : Address)
  | upgradeProposed (wasmHash timestamp : Nat)
  | upgradeExecuted (wasmHash : Nat)
  | upgradeCanceled

/-- Reads `LoanStatus.toScVal` back. -/
def LoanStatus.ofScVal : ScVal → Option LoanStatus
  | .vec [.symbol "Active"] => some .active
  | .vec [.symbol "Repaid"] => some .repaid
  | .vec [.symbol "Liquidated"] => some .liquidated
  | _ => none

@[simp] theorem LoanStatus.ofScVal_toScVal (status : LoanStatus) :
    LoanStatus.ofScVal status.toScVal = some status := by
  cases status <;> rfl

/-- The events of the two topics `first` and `second`, read by their data. -/
def noticeOf (first second : Symbol) (data : ScVal) : Option Notice :=
  match first, second, data with
  | "loan", "requested", .vec [.u64 id, .address borrower, .i128 amount, .i128 disbursement,
      .i128 total] => some (.requested id borrower amount disbursement total)
  | "loan", "liquidated", .vec [.u64 id, .address liquidator, .i128 repayAmount,
      .i128 outstanding, status] =>
      (LoanStatus.ofScVal status).map (.liquidated id liquidator repayAmount outstanding)
  | "livestock", "registered", .vec [.u64 id, .address owner, .symbol animalType, .u32 count,
      .i128 value] => some (.registered id owner animalType count value)
  | "collat", "appraised", .vec [.u64 id, .i128 value] => some (.appraised id value)
  | "whitelist", "added", .address liquidator => some (.whitelisted liquidator)
  | "whitelist", "removed", .address liquidator => some (.unlisted liquidator)
  | "Admin", "AnimalCap", .vec [.symbol animalType, .i128 maxValue] =>
      some (.capped animalType maxValue)
  | "Admin", "PropNewAd", .address newAdmin => some (.adminProposed newAdmin)
  | "Admin", "AdminUpd", .address newAdmin => some (.adminChanged newAdmin)
  | "upgrade", "proposed", .vec [.bytes hash, .u64 timestamp] =>
      some (.upgradeProposed hash timestamp)
  | "upgrade", "executed", .vec [.bytes hash, .u64 _] => some (.upgradeExecuted hash)
  | "upgrade", "canceled", .u64 _ => some .upgradeCanceled
  | _, _, _ => none

/-- The events with other topics. Parameter updates and prices are not read. -/
def Event.notice (e : Event) : Option Notice :=
  match e.topics, e.data with
  | [.symbol first, .symbol second], data => noticeOf first second data
  | [.symbol "loan_repaid", .address borrower],
      .vec [.u64 id, .i128 principalPaid, .i128 interestPaid, .i128 outstanding] =>
      some (.repaid borrower id principalPaid interestPaid outstanding)
  | [.symbol "FeeCol", .u64 id], .vec [.symbol kind, .i128 fee] =>
      some (.feeCollected id kind fee)
  | [.symbol "emergency"], .vec [.address recipient, .i128 balance] =>
      some (.withdrawn recipient balance)
  | [.symbol "Pause"], .u64 expiresAt => some (.paused expiresAt)
  | [.symbol "Unpause"], .u64 _ => some .unpaused
  | _, _ => none

def World.notices (w : World) : List Notice := w.events.filterMap Event.notice

/-! ## The book -/

/-- What the log tells of a loan. -/
structure LoanAccount where
  borrower : Address
  principal : Int
  outstanding : Int
  totalCollateralValue : Int
  status : LoanStatus
  deriving DecidableEq, Repr

def LoanRecord.account (loan : LoanRecord) : LoanAccount where
  borrower := loan.borrower
  principal := loan.principal
  outstanding := loan.outstanding
  totalCollateralValue := loan.totalCollateralValue
  status := loan.status

/-- What the log tells of a collateral: all of it but the lock. -/
structure Registration where
  owner : Address
  animalType : Symbol
  count : Nat
  appraisedValue : Int
  appraisalHistory : List Int
  deriving DecidableEq, Repr

def CollateralRecord.registration (col : CollateralRecord) : Registration where
  owner := col.owner
  animalType := col.animalType
  count := col.count
  appraisedValue := col.appraisedValue
  appraisalHistory := col.appraisalHistory

/-- The part of the contract's state that the log tells. -/
structure LogBook where
  loans : Nat → Option LoanAccount := fun _ => none
  collaterals : Nat → Option Registration := fun _ => none
  animalCaps : Symbol → Option Int := fun _ => none
  whitelist : Finset Address := ∅
  paused : Bool := false
  pauseExp : Nat := 0
  pendingAdmin : Option Address := none
  pendingWasm : Option Nat := none
  upgradeTime : Option Nat := none
  wasm : Option Nat := none

def World.logBook (w : World) : LogBook where
  loans id := (w.loans.lookup id).map LoanRecord.account
  collaterals id := (w.collaterals.lookup id).map CollateralRecord.registration
  animalCaps animalType := w.animalCaps.lookup animalType
  whitelist := w.whitelist
  paused := w.paused
  pauseExp := w.pauseExp
  pendingAdmin := w.pendingAdmin
  pendingWasm := w.pendingWasm
  upgradeTime := w.upgradeTime
  wasm := w.wasm

namespace LogBook

open Function (update)

/-- Rewrite the account of a loan that is already there. -/
def adjust (b : LogBook) (loanId : Nat) (f : LoanAccount → LoanAccount) : LogBook :=
  { b with loans := update b.loans loanId ((b.loans loanId).map f) }

def record (b : LogBook) : Notice → LogBook
  | .requested id borrower amount _ total =>
      { b with loans := update b.loans id (some ⟨borrower, amount, amount, total, .active⟩) }
  -- The event of a repayment has no status; nothing left means repaid.
  | .repaid _ id _ _ outstanding =>
      b.adjust id fun loan => { loan with
        outstanding, status := if outstanding = 0 then .repaid else loan.status }
  | .liquidated id _ _ outstanding status =>
      b.adjust id fun loan => { loan with outstanding, status }
  | .registered id owner animalType count value =>
      { b with collaterals :=
          update b.collaterals id (some ⟨owner, animalType, count, value, [value]⟩) }
  | .appraised id value =>
      { b with collaterals := update b.collaterals id ((b.collaterals id).map fun col =>
          { col with
            appraisedValue := value
            appraisalHistory := pushAppraisal col.appraisalHistory value }) }
  | .whitelisted liquidator => { b with whitelist := insert liquidator b.whitelist }
  | .unlisted liquidator => { b with whitelist := b.whitelist.erase liquidator }
  | .paused expiresAt => { b with paused := true, pauseExp := expiresAt }
  | .unpaused => { b with paused := false, pauseExp := 0 }
  | .capped animalType maxValue =>
      { b with animalCaps := update b.animalCaps animalType (some maxValue) }
  | .adminProposed newAdmin => { b with pendingAdmin := some newAdmin }
  | .adminChanged _ => { b with pendingAdmin := none }
  | .upgradeProposed hash timestamp =>
      { b with pendingWasm := some hash, upgradeTime := some timestamp }
  | .upgradeExecuted hash =>
      { b with pendingWasm := none, upgradeTime := none, wasm := some hash }
  | .upgradeCanceled => { b with pendingWasm := none, upgradeTime := none }
  | .feeCollected _ _ _ | .withdrawn _ _ => b

end LogBook

/-! ## The token movements -/

/-- A transfer of the contract's token. -/
structure Transfer where
  sender : Address
  receiver : Address
  amount : Int

/-- The transfer a notice tells of. -/
def Notice.transfer (treasury : Address) : Notice → Option Transfer
  | .requested _ borrower _ disbursement _ => some ⟨.currentContract, borrower, disbursement⟩
  | .repaid borrower _ principalPaid interestPaid _ =>
      some ⟨borrower, .currentContract, principalPaid + interestPaid⟩
  | .liquidated _ liquidator repayAmount _ _ =>
      some ⟨liquidator, .currentContract, repayAmount⟩
  | .feeCollected _ _ fee => some ⟨.currentContract, treasury, fee⟩
  | .withdrawn recipient balance =>
      if balance > 0 then some ⟨.currentContract, recipient, balance⟩ else none
  | _ => none

/-- What a transfer adds to the balance of `holder`. -/
def Transfer.net (t : Transfer) (holder : Address) : Int :=
  (if holder = t.receiver then t.amount else 0) - (if holder = t.sender then t.amount else 0)

/-- What all transfers told of add to the balance of `holder`. -/
def netReceived (treasury holder : Address) (notices : List Notice) : Int :=
  ((notices.filterMap (Notice.transfer treasury)).map (·.net holder)).sum

@[simp] theorem netReceived_nil (treasury holder : Address) : netReceived treasury holder [] = 0 :=
  rfl

theorem netReceived_append (treasury holder : Address) (first second : List Notice) :
    netReceived treasury holder (first ++ second) =
      netReceived treasury holder first + netReceived treasury holder second := by
  simp [netReceived]

theorem netReceived_single {treasury : Address} {notice : Notice} {t : Transfer}
    (h : notice.transfer treasury = some t) (holder : Address) :
    netReceived treasury holder [notice] = t.net holder := by
  simp [netReceived, h]

theorem netReceived_of_still {treasury : Address} (holder : Address) {notices : List Notice}
    (h : ∀ n ∈ notices, n.transfer treasury = none) : netReceived treasury holder notices = 0 := by
  rw [netReceived, List.filterMap_eq_nil_iff.mpr h]
  rfl

/-- A balance after a transfer, in any token. -/
theorem Ledger.move_net (L : Ledger) (token token' sender receiver holder : Address)
    (amount : Int) :
    L.move token sender receiver amount token' holder =
      L token' holder +
        if token' = token then Transfer.net ⟨sender, receiver, amount⟩ holder else 0 := by
  split
  next h =>
    rw [h, Ledger.move_apply, Transfer.net, ← add_sub_assoc]
  next h => simp [Ledger.move, Ledger.set, h]

end StellarKraal
