import StellarKraal.Contract.Types
import StellarKraal.Indexer.Database

/-!
# The event indexer

`processEvent` dispatches on the first topic of a contract event; two handlers
sync loan rows. A handler catches whatever is thrown in it and logs, so that a
throw ends it with the writes made so far.
-/

namespace StellarKraal.Indexer

/-- JavaScript values, as far as contract values decode to them. -/
inductive Native
  | undefined
  | null
  | bool (b : Bool)
  | number (n : Int)
  | bigint (n : Int)
  | string (s : String)
  | array (items : List Native)
  | object (fields : List (String × Native))

/-- What the code takes from the SDK and the language: decoding, which may throw,
and the reading of numeric strings. -/
structure Runtime where
  scValToNative : ScVal → Option Native
  numberOfString : String → Float

namespace Native

/-- `data[key]`, for a key that only objects have; `null` and `undefined` throw. -/
def property (data : Native) (key : String) : Option Native :=
  match data with
  | .undefined | .null => none
  | .object fields => some ((fields.lookup key).getD .undefined)
  | _ => some .undefined

mutual

/-- `String(value)`. -/
def toText : Native → String
  | .undefined => "undefined"
  | .null => "null"
  | .bool b => toString b
  | .number n => toString n
  | .bigint n => toString n
  | .string s => s
  | .array items => String.intercalate "," (elementTexts items)
  | .object _ => "[object Object]"

/-- Elements of an array; `null` and `undefined` are left blank. -/
def elementTexts : List Native → List String
  | [] => []
  | .undefined :: rest => "" :: elementTexts rest
  | .null :: rest => "" :: elementTexts rest
  | item :: rest => item.toText :: elementTexts rest

end

/-- `Number(value)`. -/
def toNumber (rt : Runtime) : Native → Float
  | .undefined => 0 / 0
  | .null => 0
  | .bool b => if b then 1 else 0
  | .number n => Float.ofInt n
  | .bigint n => Float.ofInt n
  | .string s => rt.numberOfString s
  | .array items => rt.numberOfString (toText (.array items))
  | .object _ => 0 / 0

end Native

/-- An event as the RPC reports it. -/
structure SorobanEvent where
  ledger : Nat
  topic : List ScVal
  value : ScVal

def SorobanEvent.report (ledger : Nat) (e : Event) : SorobanEvent := ⟨ledger, e.topics, e.data⟩

/-- The contract event it reports. -/
def SorobanEvent.toEvent (event : SorobanEvent) : Event := ⟨event.topic, event.value⟩

/-- The body of a handler, which a throw ends. -/
abbrev Handler := OptionT (Script Query.Reply)

namespace Handler

def ask (query : Query) : Handler query.Row := OptionT.mk (.ask query .done)

def orThrow {α : Type} (value : Option α) : Handler α := OptionT.mk (.done value)

/-- The handler as its caller sees it: errors are logged, not passed on. -/
def caught (handler : Handler Unit) : Script Query.Reply Unit := do
  let _ ← handler.run
  return ()

end Handler

open Handler (ask orThrow caught)

/-- The event is not newer than the last one processed for the loan. -/
def isReplayed (event : SorobanEvent) (existingLoan : Option Loan) : Bool :=
  match existingLoan with
  | some { lastEventLedger := some lastEventLedger, .. } => event.ledger ≤ lastEventLedger
  | _ => false

def isTerminal (existingLoan : Option Loan) : Bool :=
  match existingLoan with
  | some loan => loan.status ∈ [LoanStatus.repaid, .liquidated, .defaulted]
  | none => false

def handleLoanCreated (rt : Runtime) (event : SorobanEvent) : Handler Unit := do
  let data ← orThrow (rt.scValToNative event.value)
  let loanId ← orThrow (data.property "loan_id")
  let borrowerKey ← orThrow (data.property "borrower")
  let principal ← orThrow (data.property "principal")
  let interestRateBps ← orThrow (data.property "interest_rate_bps")
  let durationDays ← orThrow (data.property "duration_days")
  let livestockId ← orThrow (data.property "collateral_id")
  let existingLoan ← ask (.findLoan loanId.toText)
  if isReplayed event existingLoan ∨ isTerminal existingLoan then pure ()
  else
    match ← ask (.findUser borrowerKey.toText) with
    | none => pure ()
    | some borrower =>
      match ← ask (.findLivestock livestockId.toText) with
      | none => pure ()
      | some livestock =>
        -- The second argument is all that changes in a row that exists already.
        ask (.upsertLoan
          { contractLoanId := loanId.toText
            borrowerId := borrower.id
            livestockId := livestock.id
            principalUSDC := principal.toNumber rt / 1e7
            interestRateBps := interestRateBps.toNumber rt
            durationDays := durationDays.toNumber rt
            status := .active
            lastEventLedger := some event.ledger }
          { status := .active, lastEventLedger := event.ledger })

/-- The two closing events. -/
inductive ClosingStatus
  | repaid
  | liquidated
  deriving DecidableEq, Repr

def ClosingStatus.toLoanStatus : ClosingStatus → LoanStatus
  | .repaid => .repaid
  | .liquidated => .liquidated

/-- A liquidated loan makes its collateral available again. -/
def releaseLivestock (contractLoanId : String) : Handler Unit := do
  match ← ask (.findLoanLivestock contractLoanId) with
  | none => pure ()
  | some livestock => ask (.updateLivestock livestock.id .verified)

def handleLoanStatusChange (rt : Runtime) (event : SorobanEvent) (status : ClosingStatus) :
    Handler Unit := do
  let data ← orThrow (rt.scValToNative event.value)
  let loanId ← orThrow (data.property "loan_id")
  let existingLoan ← ask (.findLoan loanId.toText)
  if isReplayed event existingLoan then pure ()
  else do
    if status = .liquidated then releaseLivestock loanId.toText
    -- Throws where there is no row; unlike a creation it may overwrite a terminal status.
    ask (.updateLoan loanId.toText
      { status := status.toLoanStatus, lastEventLedger := event.ledger })

/-- The event names the indexer knows. -/
def trackedEvents : List String := ["LoanCreated", "LoanRepaid", "AssetLiquidated"]

def processEvent (rt : Runtime) (event : SorobanEvent) : Script Query.Reply Unit :=
  match event.topic with
  | [] => pure ()
  | first :: _ =>
      match rt.scValToNative first with
      | some (.string eventName) =>
          if eventName = "LoanCreated" then caught (handleLoanCreated rt event)
          else if eventName = "LoanRepaid" then caught (handleLoanStatusChange rt event .repaid)
          else if eventName = "AssetLiquidated" then
            caught (handleLoanStatusChange rt event .liquidated)
          else pure ()
      -- Decoding threw, or gave something no case label equals.
      | _ => pure ()

/-- The database after `processEvent` was applied to every event, in order. -/
def indexEvents (rt : Runtime) (accepts : Loan → Bool) (events : List SorobanEvent)
    (db : Database) : Database :=
  Script.runAll (serve accepts) (events.map (processEvent rt)) db

mutual

/-- The SDK's decoding, with addresses spelled by `accountKey`. Byte strings
decode to arrays, which have none of the fields read here. -/
def decode (accountKey : Address → String) : ScVal → Native
  | .void => .null
  | .bool b => .bool b
  | .u32 n => .number n
  | .u64 n => .bigint n
  | .i128 n => .bigint n
  | .symbol s => .string s
  | .address a => .string (accountKey a)
  | .bytes _ => .array []
  | .vec items => .array (decodeItems accountKey items)
  | .map entries => .object (decodeEntries accountKey entries)

def decodeItems (accountKey : Address → String) : List ScVal → List Native
  | [] => []
  | item :: rest => decode accountKey item :: decodeItems accountKey rest

def decodeEntries (accountKey : Address → String) : List (ScVal × ScVal) → List (String × Native)
  | [] => []
  | (key, value) :: rest =>
      ((decode accountKey key).toText, decode accountKey value) :: decodeEntries accountKey rest

end

def Runtime.standard (accountKey : Address → String) (numberOfString : String → Float) :
    Runtime where
  scValToNative value := some (decode accountKey value)
  numberOfString := numberOfString

/-- Decoding a symbol gives its text. -/
def Runtime.DecodesSymbols (rt : Runtime) : Prop :=
  ∀ s, rt.scValToNative (.symbol s) = some (.string s)

/-- An event whose name is not tracked is skipped. -/
theorem processEvent_untracked {rt : Runtime} (hrt : rt.DecodesSymbols) {event : SorobanEvent}
    {name : Symbol} {rest : List ScVal} (htopic : event.topic = .symbol name :: rest)
    (hname : name ∉ trackedEvents) : processEvent rt event = .done () := by
  simp only [trackedEvents, List.mem_cons, List.not_mem_nil, or_false, not_or] at hname
  obtain ⟨hcreated, hrepaid, hliquidated⟩ := hname
  simp only [processEvent, htopic, hrt name, if_neg hcreated, if_neg hrepaid, if_neg hliquidated]
  rfl

end StellarKraal.Indexer
