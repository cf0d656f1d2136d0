import Mathlib.Data.PNat.Basic
import StellarKraal.Foundation.Script

/-!
# Retiring loans on chain

A batch is cut into chunks, and each chunk becomes one transaction: it is built for
the server's account, simulated, sent, and then waited for. The first chunk whose
submission throws is reported as failed, and those after it are not submitted.
-/

namespace StellarKraal.Retirement

/-! ## Batches -/

/-- A loan's row id, and its id on chain. -/
structure RetirementTarget where
  id : String
  contractLoanId : String

inductive RetirementChunkStatus
  | success
  | failed
  | skipped
  deriving DecidableEq, Repr

structure RetirementChunkResult where
  loanIds : List String
  contractLoanIds : List String
  status : RetirementChunkStatus
  txHash : Option String
  error : Option String

/-- The slices that start at the multiples of `size`. With a size of 0 the source's
loop would not end. -/
def chunkArray {α : Type} (items : List α) (size : ℕ+) : List (List α) :=
  (List.range' 0 ((items.length + size - 1) / size) size).map fun i => items.extract i (i + size)

theorem flatten_slices {α : Type} (items : List α) (size n start : Nat) :
    ((List.range' start n size).map fun i => items.extract i (i + size)).flatten =
      (items.drop start).take (n * size) := by
  induction n generalizing start with
  | zero => simp
  | succ n ih =>
      rw [List.range'_succ, List.map_cons, List.flatten_cons, ih, List.extract_eq_take_drop,
        Nat.add_sub_cancel_left, Nat.succ_mul, Nat.add_comm (n * size), List.take_add,
        List.drop_drop]

/-- The chunks are the items, in order. -/
theorem flatten_chunkArray {α : Type} (items : List α) (size : ℕ+) :
    (chunkArray items size).flatten = items := by
  rw [chunkArray, flatten_slices, List.drop_zero]
  apply List.take_of_length_le
  have hsize : 0 < (size : Nat) := size.pos
  have hdiv := Nat.lt_div_mul_add (a := items.length + size - 1) hsize
  omega

/-- What a rejected promise carries: an `Error` with its message, or anything else. -/
abbrev Thrown : Type := Option String

def Thrown.message (err : Thrown) : String := err.getD "Unknown error"

/-- What is reported of a chunk: its loans, and how it went. -/
def RetirementChunkResult.ofChunk (chunk : List RetirementTarget)
    (status : RetirementChunkStatus) (txHash error : Option String) : RetirementChunkResult where
  loanIds := chunk.map (·.id)
  contractLoanIds := chunk.map (·.contractLoanId)
  status
  txHash
  error

def RetirementChunkResult.skipped (chunk : List RetirementTarget) : RetirementChunkResult :=
  .ofChunk chunk .skipped none
    (some "Skipped: an earlier batch in this request failed on-chain")

section Batch

variable {m : Type → Type} [Monad m] (submit : List String → ExceptT Thrown m String)

/-- The loop over the chunks, with the results so far. -/
def retireChunks : List (List RetirementTarget) → List RetirementChunkResult → Bool →
    m (List RetirementChunkResult)
  | [], results, _ => pure results
  | chunk :: rest, results, true => retireChunks rest (results ++ [.skipped chunk]) true
  | chunk :: rest, results, false => do
      match ← (submit (chunk.map (·.contractLoanId))).run with
      | .ok txHash =>
          retireChunks rest (results ++ [.ofChunk chunk .success (some txHash) none]) false
      | .error err =>
          retireChunks rest (results ++ [.ofChunk chunk .failed none (some err.message)]) true

theorem retireChunks_aborted (chunks : List (List RetirementTarget))
    (results : List RetirementChunkResult) :
    retireChunks submit chunks results true =
      pure (results ++ chunks.map RetirementChunkResult.skipped) := by
  induction chunks generalizing results with
  | nil => simp [retireChunks]
  | cons chunk rest ih => simp [retireChunks, ih]

def retireLoansOnChain (loans : List RetirementTarget) (maxOpsPerChunk : ℕ+) :
    m (List RetirementChunkResult) :=
  retireChunks submit (chunkArray loans maxOpsPerChunk) [] false

end Batch

/-! ## One chunk -/

/-- A transaction. Its operations are the `retire_loan` calls for the loans, `fee` is what
the builder is given for it, and `resources` the fee and the data that the SDK puts in after the
simulation. -/
structure Transaction where
  sequence : Nat
  fee : Nat
  contractLoanIds : List String
  resources : Option String

inductive SendStatus
  | pending
  | duplicate
  | tryAgainLater
  | error
  deriving DecidableEq, Repr

/-- `errorResult` as its JSON text. -/
structure SendResult where
  status : SendStatus
  hash : String
  errorResult : String

inductive TransactionStatus
  | success
  | failed
  | notFound
  deriving DecidableEq, Repr

/-- The calls of the RPC that a submission waits for, and the SDK's assembling of the simulated
transaction, which throws where it cannot take it. -/
inductive RpcCall
  | getAccount
  | simulateTransaction (tx : Transaction)
  | assembleTransaction (tx : Transaction) (simulated : String)
  | sendTransaction (tx : Transaction)
  | getTransaction (txHash : String)

/-- The account's sequence number, the result or the error of a simulation, what is put into the
transaction, and the rest as it is. -/
def RpcCall.Value : RpcCall → Type
  | .getAccount => Nat
  | .simulateTransaction _ => Except String String
  | .assembleTransaction _ _ => String
  | .sendTransaction _ => SendResult
  | .getTransaction _ => TransactionStatus

abbrev RpcCall.Reply (call : RpcCall) : Type := Except Thrown call.Value

abbrev Submission : Type → Type := ExceptT Thrown (Script RpcCall.Reply)

/-- What the SDK throws while it first builds or signs counts as thrown by the call before. -/
def rpc (call : RpcCall) : Submission call.Value := ExceptT.mk (.ask call .done)

def maxAttempts : Nat := 20

/-- Polls with so many attempts left. -/
def waitForTransaction (txHash : String) : Nat → Submission Unit
  | 0 => throw (some s!"Transaction {txHash} not confirmed after {maxAttempts} attempts")
  | attempts + 1 => do
      match ← rpc (.getTransaction txHash) with
      | .success => pure ()
      | .failed => throw (some s!"Transaction failed on-chain: {txHash}")
      | .notFound => waitForTransaction txHash attempts

/-- The network's fee for an operation. -/
def baseFee : Nat := 100

def submitRetirementChunk (contractLoanIds : List String) : Submission String := do
  let sequence : Nat ← rpc .getAccount
  let builtTx : Transaction :=
    { sequence := sequence + 1
      fee := baseFee * contractLoanIds.length
      contractLoanIds
      resources := none }
  match ← rpc (.simulateTransaction builtTx) with
  | .error message => throw (some s!"Simulation failed: {message}")
  | .ok simulated =>
      let resources : String ← rpc (.assembleTransaction builtTx simulated)
      let sendResult ← rpc (.sendTransaction { builtTx with resources := some resources })
      if sendResult.status = .error then
        throw (some s!"Transaction submission failed: {sendResult.errorResult}")
      else do
        waitForTransaction sendResult.hash maxAttempts
        return sendResult.hash

end StellarKraal.Retirement
