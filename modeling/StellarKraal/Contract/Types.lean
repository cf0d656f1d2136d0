import StellarKraal.Foundation.KeyedStore
import Mathlib.Data.Finset.Insert

/-!
# The contract's data model

Records, errors and storage of the lending contract. The storage keys of one
tier become the fields of one record. `initialize` writes all of `Config` at
once and nothing removes it, so the presence of `ADMIN` is the presence of the
whole record; every other key reads as a default while it is unset.
-/

namespace StellarKraal

/-- A Stellar address: the contract itself, an account key, another contract. -/
inductive Address
  | currentContract
  | account (key : Nat)
  | contract (id : Nat)
  deriving DecidableEq, Repr

/-- The all-zero account key, `GAAAA…WHF`. -/
def Address.zero : Address := .account 0

/-- Symbols keep the text the source gives them. -/
abbrev Symbol := String

inductive Error
  | notInitialized
  | alreadyInitialized
  | unauthorized
  | insufficientCollateral
  | loanNotFound
  | collateralNotFound
  | healthFactorSafe
  | invalidAmount
  | loanAlreadyClosed
  | invalidFeeRate
  | exceedsCloseFactor
  | invalidCloseFactor
  | contractPaused
  | oracleAlreadyRegistered
  | oracleLimitReached
  | oracleNotFound
  | insufficientOracleQuorum
  | invalidPrice
  | notPaused
  | alreadyInProgress
  | alreadyPaused
  | arithmeticOverflow
  | liquidatorNotWhitelisted
  | noUpgradePending
  | timelockNotElapsed
  deriving DecidableEq, Repr

/-- How a call fails: with a typed error, or by a trap (a failed
authorisation, a failed token call, an unwrap, an overflow check). -/
inductive Failure
  | error (e : Error)
  | trap
  deriving DecidableEq, Repr

abbrev Result := Except Failure

inductive LoanStatus
  | active
  | repaid
  | liquidated
  deriving DecidableEq, Repr

structure CollateralRecord where
  owner : Address
  animalType : Symbol
  count : Nat
  appraisedValue : Int
  /-- The loan this collateral is locked to; `0` means unlocked. -/
  loanId : Nat
  appraisalHistory : List Int
  deriving DecidableEq, Repr

structure LoanRecord where
  id : Nat
  borrower : Address
  collateralIds : List Nat
  totalCollateralValue : Int
  principal : Int
  /-- Remaining principal, without the accrued interest. -/
  outstanding : Int
  interestAccrued : Int
  lastInterestTime : Nat
  status : LoanStatus
  deriving DecidableEq, Repr

/-- Values as they appear in event topics and event data. -/
inductive ScVal
  | void
  | bool (b : Bool)
  | u32 (n : Nat)
  | u64 (n : Nat)
  | i128 (n : Int)
  | symbol (s : Symbol)
  | address (a : Address)
  | bytes (hash : Nat)
  | vec (items : List ScVal)
  | map (entries : List (ScVal × ScVal))

structure Event where
  topics : List ScVal
  data : ScVal

/-- Instance storage written by `initialize`. -/
structure Config where
  admin : Address
  oracle : Address
  token : Address
  treasury : Address
  ltv : Nat
  liqThr : Nat
  minQuorum : Nat
  origFee : Nat
  intFee : Nat
  closeFactor : Nat
  baseRate : Nat
  slope1 : Nat
  slope2 : Nat
  kink : Nat
  totalBorrowed : Int
  totalLiquidity : Int
  twapWindow : Nat
  lastPrice : Int
  lastPriceTime : Nat
  twapPrice : Int
  twapSum : Int
  twapCount : Nat
  priceMin : Int
  priceMax : Int
  staleThr : Nat
  devBps : Nat
  deriving DecidableEq, Repr

/-- Token balances: token contract, then holder. -/
abbrev Ledger := Address → Address → Int

/-- What the host keeps between calls: the contract's storage in all tiers, the
token balances, the ledger time, the installed code and the published events. -/
structure World where
  timestamp : Nat
  ledger : Ledger
  events : List Event := []
  wasm : Option Nat := none
  config : Option Config := none
  paused : Bool := false
  pauseExp : Nat := 0
  pauseDur : Nat := 24 * 3600
  oracles : Option (List Address) := none
  pendingAdmin : Option Address := none
  wlCount : Nat := 0
  loanCounter : Nat := 0
  collateralCounter : Nat := 0
  /-- The reentrancy flag in temporary storage. -/
  guard : Bool := false
  loans : KeyedStore Nat LoanRecord := ∅
  collaterals : KeyedStore Nat CollateralRecord := ∅
  whitelist : Finset Address := ∅
  animalCaps : KeyedStore Symbol Int := ∅
  pendingWasm : Option Nat := none
  upgradeTime : Option Nat := none

end StellarKraal
