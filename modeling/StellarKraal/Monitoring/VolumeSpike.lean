import StellarKraal.Foundation.FloatingPoint
import StellarKraal.Foundation.WhileLoop
import StellarKraal.Monitoring.Rules

/-!
# The rule for volume spikes

The invocations of a contract are counted in windows of one width. The windows advance
when an invocation comes in, through all that have gone by; the counts of the last ones
are the baseline for the current one. Times, windows and counts are whole numbers in the
range where binary64 is exact; the baseline and its multiple are rounded as they are there.
-/

namespace StellarKraal.Monitoring.VolumeSpike

open FloatingPoint (binary64)

/-- What the rule reads of the configuration. The multiplier is a double. -/
structure Config where
  volumeWindowSeconds : Number
  volumeBaselineWindows : Nat
  volumeSpikeMultiplier : Number
  volumeSpikeMinCount : Nat

def Config.windowMs (config : Config) : Number := config.volumeWindowSeconds * 1000

structure WindowState where
  windowStartMs : Number
  count : Nat
  history : List Nat
  deriving DecidableEq

/-- The states by contract. -/
abbrev States := String → Option WindowState

/-- The condition of the loop. -/
def WindowState.isOver (config : Config) (nowMs : Number) (state : WindowState) : Bool :=
  nowMs - state.windowStartMs ≥ config.windowMs

/-- Its body: the count goes into the history, whose oldest entry makes room. -/
def WindowState.roll (config : Config) (state : WindowState) : WindowState where
  windowStartMs := state.windowStartMs + config.windowMs
  count := 0
  history :=
    if (state.history ++ [state.count]).length > config.volumeBaselineWindows then
      (state.history ++ [state.count]).tail
    else state.history ++ [state.count]

/-- The state with the invocation counted. -/
def advance (fuel : Nat) (config : Config) (nowMs : Number) (state : Option WindowState) :
    Option WindowState :=
  (WhileLoop.run (WindowState.isOver config nowMs) (WindowState.roll config) fuel
    (state.getD { windowStartMs := nowMs, count := 0, history := [] })).map
      fun state => { state with count := state.count + 1 }

/-- `mean` of the shared helpers, in binary64. -/
def mean (values : List Number) : Number :=
  if values.length = 0 then 0
  else binary64 (values.foldl (fun sum v => binary64 (sum + v)) 0 / values.length)

def ruleId : String := "transaction-volume-spike"

def spike (config : Config) (invocation : NormalizedInvocation) (count : Nat)
    (baseline : Number) : AnomalyReport :=
  let seconds := numberText config.volumeWindowSeconds
  let threshold := toFixed 1 (binary64 (baseline * config.volumeSpikeMultiplier))
  let multiplier := numberText config.volumeSpikeMultiplier
  { ruleId
    severity := .warning
    contractId := invocation.contractId
    txHash := invocation.txHash
    ledger := invocation.ledger
    functionName := invocation.functionName
    sourceAccount := invocation.sourceAccount
    observedValue := s!"{count} ops / {seconds}s"
    thresholdValue := s!"> {threshold} ops (baseline {toFixed 1 baseline} x{multiplier})"
    message := s!"Transaction volume spike: {count} operations in the current {seconds}s " ++
      s!"window vs. a trailing baseline of {toFixed 1 baseline}"
    dedupKey := s!"{ruleId}:{invocation.contractId}"
    occurredAt := invocation.occurredAt }

def anomalies (config : Config) (invocation : NormalizedInvocation) (state : WindowState) :
    List AnomalyReport :=
  if state.history.length ≥ 1 ∧ state.count ≥ config.volumeSpikeMinCount then
    let baseline := mean (state.history.map Nat.cast)
    if baseline > 0 ∧ state.count > binary64 (baseline * config.volumeSpikeMultiplier) then
      [spike config invocation state.count baseline]
    else []
  else []

/-- `none` where the loop is not over within `fuel` rounds. -/
def evaluate (fuel : Nat) (config : Config) (invocation : NormalizedInvocation)
    (states : States) : Option (List AnomalyReport × States) :=
  match invocation.occurredAtMs with
  | none => some ([], states)
  | some nowMs =>
      (advance fuel config nowMs (states invocation.contractId)).map fun state =>
        (anomalies config invocation state,
          Function.update states invocation.contractId (some state))

/-- The states after a stream of invocations. -/
def statesAfter (fuel : Nat) (config : Config) (stream : List NormalizedInvocation) :
    Option States :=
  stream.foldlM (fun states invocation =>
    (evaluate fuel config invocation states).map Prod.snd) fun _ => none

end StellarKraal.Monitoring.VolumeSpike
