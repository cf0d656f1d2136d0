import StellarKraal.Foundation.Streams
import StellarKraal.Monitoring.Rules

/-!
# The rule for deviations of prices

The values of each watched function of a contract are kept, up to a limit. A new value is
compared with their mean before it is added to them. Mean and deviation are exact here,
where the code has doubles.
-/

namespace StellarKraal.Monitoring.OracleDeviation

/-- What the rule reads of the configuration. -/
structure Config where
  oraclePriceFunctions : List String
  oracleDeviationThresholdPct : Number
  oracleDeviationMinSamples : Nat

def ruleId : String := "oracle-price-deviation"

def historyLimit : Nat := 50

/-- The samples by contract and function. -/
abbrev History := String → Option (List Number)

def keyOf (contractId functionName : String) : String := s!"{contractId}:{functionName}"

def deviationPct (observed baseline : Number) : Number :=
  if baseline = 0 then if observed = 0 then 0 else 100
  else |observed - baseline| / |baseline| * 100

def deviation (config : Config) (invocation : NormalizedInvocation) (functionName : String)
    (observed : Number) (samples : List Number) : AnomalyReport :=
  let baseline := toFixed 4 (mean samples)
  let threshold := numberText config.oracleDeviationThresholdPct
  let deviates := toFixed 1 (deviationPct observed (mean samples))
  { ruleId
    severity := .critical
    contractId := invocation.contractId
    txHash := invocation.txHash
    ledger := invocation.ledger
    functionName := invocation.functionName
    sourceAccount := invocation.sourceAccount
    observedValue := numberText observed
    thresholdValue := s!"{threshold}% (baseline {baseline})"
    message := s!"Value from \"{functionName}\" deviates {deviates}% from the rolling " ++
      s!"{samples.length}-sample baseline of {baseline}"
    dedupKey := s!"{ruleId}:{keyOf invocation.contractId functionName}"
    occurredAt := invocation.occurredAt }

def anomalies (config : Config) (invocation : NormalizedInvocation) (functionName : String)
    (observed : Number) (samples : List Number) : List AnomalyReport :=
  if samples.length ≥ config.oracleDeviationMinSamples then
    if deviationPct observed (mean samples) > config.oracleDeviationThresholdPct then
      [deviation config invocation functionName observed samples]
    else []
  else []

/-- `push`, and `shift` where there are too many. -/
def pushSample (samples : List Number) (observed : Number) : List Number :=
  if (samples ++ [observed]).length > historyLimit then (samples ++ [observed]).tail
  else samples ++ [observed]

def evaluate (config : Config) (invocation : NormalizedInvocation) (history : History) :
    List AnomalyReport × History :=
  match watchedFunction config.oraclePriceFunctions invocation with
  | none => ([], history)
  | some functionName =>
      match extractLargestNumericArg invocation.args with
      | none => ([], history)
      | some observed =>
          let key := keyOf invocation.contractId functionName
          let samples := (history key).getD []
          (anomalies config invocation functionName observed samples,
            Function.update history key (some (pushSample samples observed)))

/-- The samples after a stream of invocations. -/
def historyAfter (config : Config) (stream : List NormalizedInvocation) : History :=
  stream.foldl (fun history invocation => (evaluate config invocation history).2) fun _ => none

/-! ## Key by key -/

/-- The key whose samples an invocation can add to. -/
def sampleKey (config : Config) (invocation : NormalizedInvocation) : Option String :=
  (watchedFunction config.oraclePriceFunctions invocation).map (keyOf invocation.contractId)

/-- The samples of its key after an invocation. -/
def record (samples : Option (List Number)) (invocation : NormalizedInvocation) :
    Option (List Number) :=
  match extractLargestNumericArg invocation.args with
  | none => samples
  | some observed => some (pushSample (samples.getD []) observed)

theorem evaluate_snd (config : Config) (invocation : NormalizedInvocation) (history : History) :
    (evaluate config invocation history).2 =
      KeyedStates.step (sampleKey config) record history invocation := by
  rw [evaluate, KeyedStates.step, sampleKey]
  cases watchedFunction config.oraclePriceFunctions invocation with
  | none => rfl
  | some functionName =>
      simp only [record, Option.map_some]
      cases extractLargestNumericArg invocation.args with
      | none => exact (Function.update_eq_self _ history).symm
      | some observed => rfl

theorem historyAfter_apply (config : Config) (stream : List NormalizedInvocation) (key : String) :
    historyAfter config stream key =
      (stream.filter (sampleKey config · = some key)).foldl record none := by
  rw [historyAfter]
  simp only [evaluate_snd]
  exact KeyedStates.foldl_step_apply _ stream key

/-- The last values are kept. -/
theorem foldl_record (stream : List NormalizedInvocation) :
    (stream.foldl record none).getD [] =
      (stream.filterMap fun i => extractLargestNumericArg i.args).rtake historyLimit := by
  induction stream using List.reverseRecOn with
  | nil => rfl
  | append_singleton stream invocation ih =>
      rw [List.foldl_concat, List.filterMap_append, record]
      cases hobserved : extractLargestNumericArg invocation.args with
      | none => simp [hobserved, ih]
      | some observed =>
          simp only [Option.getD_some, pushSample, ih, Trailing.push_shift]
          simp [hobserved]

end StellarKraal.Monitoring.OracleDeviation
