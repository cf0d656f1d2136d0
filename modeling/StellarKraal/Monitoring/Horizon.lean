import StellarKraal.Foundation.Components
import StellarKraal.Monitoring.Alerts
import StellarKraal.Monitoring.Baselines
import StellarKraal.Monitoring.LargeValue
import StellarKraal.Monitoring.UnauthorizedEntryPoint
import StellarKraal.Monitoring.VolumeSpike

/-!
# From the stream of operations to alerts

The service turns each operation record of the stream into an invocation, where it is one,
and hands it to the dispatcher with the default rules. A call that failed, or that its
account may not make, is alerted with what tells it apart.
-/

namespace StellarKraal.Monitoring

open TransitionSystem (Transition Component)
open JoinedText (joined Plain)
open UnauthorizedEntryPoint (Incident incident)

/-! ## The default rules -/

/-- What the rules read of the configuration. -/
structure MonitorConfig where
  largeValue : LargeValue.Config
  oracleDeviation : OracleDeviation.Config
  unauthorizedEntryPoint : UnauthorizedEntryPoint.Config
  volumeSpike : VolumeSpike.Config

def anomaliesOf (reports : List AnomalyReport) : List Anomaly := reports.map (·.toAnomaly)

def createLargeValueRule (config : LargeValue.Config) : AnomalyRule NormalizedInvocation where
  evaluate _ invocation := some (anomaliesOf (LargeValue.evaluate config invocation))

def createOracleDeviationRule (config : OracleDeviation.Config) :
    AnomalyRule NormalizedInvocation where
  evaluate calls invocation :=
    let history := OracleDeviation.historyAfter config calls
    some (anomaliesOf (OracleDeviation.evaluate config invocation history).1)

def createUnauthorizedEntryPointRule (config : UnauthorizedEntryPoint.Config) :
    AnomalyRule NormalizedInvocation where
  evaluate _ invocation := some (anomaliesOf (UnauthorizedEntryPoint.evaluate config invocation))

/-- A loop that is not over within `fuel` rounds never returns. -/
def createVolumeSpikeRule (fuel : Nat) (config : VolumeSpike.Config) :
    AnomalyRule NormalizedInvocation where
  evaluate calls invocation := do
    let states ← VolumeSpike.statesAfter fuel config calls
    let (reports, _) ← VolumeSpike.evaluate fuel config invocation states
    return anomaliesOf reports

def createDefaultRules (fuel : Nat) (config : MonitorConfig) :
    List (AnomalyRule NormalizedInvocation) :=
  [createLargeValueRule config.largeValue,
    createOracleDeviationRule config.oracleDeviation,
    createUnauthorizedEntryPointRule config.unauthorizedEntryPoint,
    createVolumeSpikeRule fuel config.volumeSpike]

/-! ## Operation records -/

/-- What `scValToNative` makes of a value. -/
inductive Native
  | string (text : String)
  /-- Anything else, with its text. -/
  | other (value : Value) (text : String)

/-- `String(value)` -/
def Native.text : Native → String
  | .string text => text
  | .other _ text => text

def Native.value : Native → Value
  | .string _ => .other
  | .other value _ => value

structure OperationRecord where
  /-- A TOID, whose upper half is the ledger. -/
  id : Nat
  type : String
  /-- The encoded values. -/
  parameters : Option (List String)
  transactionHash : String
  createdAt : String
  /-- `new Date(created_at).getTime()`, where it is finite. -/
  createdAtMs : Option Int
  sourceAccount : String
  transactionSuccessful : Bool

def ledgerFromOperationId (id : Nat) : Nat := id >>> 32

/-- With `decodeScVal`, which is `none` where it throws. -/
def normalizeOperation (decodeScVal : String → Option Native) (op : OperationRecord) :
    Option NormalizedInvocation :=
  if op.type ≠ "invoke_host_function" then none
  else
    match op.parameters.getD [] with
    | contract :: function :: args => do
        let contractId := (← decodeScVal contract).text
        let functionName := (decodeScVal function).bind fun
          | .string text => some text
          | .other _ _ => none
        if contractId = "" then none
        else
          return { contractId
                   txHash := op.transactionHash
                   ledger := ledgerFromOperationId op.id
                   occurredAt := op.createdAt
                   occurredAtMs := op.createdAtMs
                   sourceAccount := op.sourceAccount
                   functionName
                   args := (args.filterMap decodeScVal).map Native.value
                   successful := op.transactionSuccessful }
    | _ => none

/-- The operations that are handed on. -/
theorem normalizeOperation_isSome_iff {decodeScVal : String → Option Native}
    {op : OperationRecord} : (normalizeOperation decodeScVal op).isSome ↔
      op.type = "invoke_host_function" ∧ ∃ contract function args native,
        op.parameters = some (contract :: function :: args) ∧
          decodeScVal contract = some native ∧ native.text ≠ "" := by
  unfold normalizeOperation
  split
  next htype => exact iff_of_false Bool.false_ne_true fun h => htype h.1
  next htype =>
    cases hparameters : op.parameters with
    | none => simp
    | some parameters =>
        match parameters with
        | [] | [_] => simp
        | contract :: function :: args =>
            cases hdecode : decodeScVal contract with
            | none => simp [hdecode]
            | some native =>
                by_cases htext : native.text = ""
                · simp [hdecode, htext]
                · simpa [hdecode, htext] using htype

/-! ## The service -/

inductive StreamEvent
  | message (op : OperationRecord)
  | error
  | answer (id : Nat) (answer : Answer)
  | tick (ms : Nat)

/-- What an event means to the dispatcher. -/
def StreamEvent.action (decodeScVal : String → Option Native) :
    StreamEvent → Option (Action NormalizedInvocation)
  | .message op => (normalizeOperation decodeScVal op).map .deliver
  | .error => none
  | .answer id result => some (.answer id result)
  | .tick ms => some (.tick ms)

def receive (decodeScVal : String → Option Native) (cooldownMs : Nat)
    (rules : List (AnomalyRule NormalizedInvocation)) (s : Monitor NormalizedInvocation)
    (event : StreamEvent) : Option (Monitor NormalizedInvocation) :=
  match event.action decodeScVal with
  | some a => s.act cooldownMs rules a
  | none => some s

/-- The dispatcher at the stream. -/
def anomalyDetection (decodeScVal : String → Option Native) (cooldownMs : Nat)
    (rules : List (AnomalyRule NormalizedInvocation)) :
    TransitionSystem (Monitor NormalizedInvocation) StreamEvent where
  Initial := Monitor.Fresh
  Step s event s' := receive decodeScVal cooldownMs rules s event = some s'

/-! ## Keys -/

/-- Addresses and symbols have no colon. -/
structure NormalizedInvocation.Plain (invocation : NormalizedInvocation) : Prop where
  contractId : ':' ∉ invocation.contractId.toList
  functionName : ∀ functionName ∈ invocation.functionName, ':' ∉ functionName.toList
  sourceAccount : ':' ∉ invocation.sourceAccount.toList

/-- The key is one of another rule. -/
def OfOtherRule (dedupKey : String) : Prop :=
  ∃ ruleId rest, ruleId ≠ UnauthorizedEntryPoint.ruleId ∧ Plain ':' (ruleId :: rest) ∧
    dedupKey = joined ':' (ruleId :: rest)

variable {invocation : NormalizedInvocation} {report : AnomalyReport}

theorem LargeValue.ofOtherRule {config : LargeValue.Config} (hplain : invocation.Plain)
    (h : report ∈ LargeValue.evaluate config invocation) : OfOtherRule report.dedupKey := by
  unfold LargeValue.evaluate at h
  split at h
  next => contradiction
  next functionName hwatched =>
    have hname := hplain.functionName _ (OracleDeviation.watchedFunction_mem hwatched)
    split at h
    next => contradiction
    next observed _ =>
      split at h
      next => contradiction
      next =>
        obtain rfl := List.mem_singleton.mp h
        refine ⟨LargeValue.ruleId, [invocation.contractId, functionName, invocation.sourceAccount],
          by decide, ?_, ?_⟩
        · simp [Plain, LargeValue.ruleId, hplain.contractId, hplain.sourceAccount, hname]
        · apply String.toList_inj.mp
          simp only [LargeValue.large, JoinedText.joined_cons_cons, JoinedText.joined_singleton,
            String.toList_append, List.append_assoc]
          rfl

theorem OracleDeviation.ofOtherRule {config : OracleDeviation.Config}
    {history : OracleDeviation.History} (hplain : invocation.Plain)
    (h : report ∈ (OracleDeviation.evaluate config invocation history).1) :
    OfOtherRule report.dedupKey := by
  unfold OracleDeviation.evaluate at h
  split at h
  next => contradiction
  next functionName hwatched =>
    have hname := hplain.functionName _ (OracleDeviation.watchedFunction_mem hwatched)
    split at h
    next => contradiction
    next observed _ =>
      simp only [OracleDeviation.anomalies] at h
      split_ifs at h
      · obtain rfl := List.mem_singleton.mp h
        refine ⟨OracleDeviation.ruleId, [invocation.contractId, functionName], by decide, ?_, ?_⟩
        · simp [Plain, OracleDeviation.ruleId, hplain.contractId, hname]
        · apply String.toList_inj.mp
          simp only [OracleDeviation.deviation, JoinedText.joined_cons_cons,
            JoinedText.joined_singleton, String.toList_append, List.append_assoc]
          change _ ++ (_ ++ (OracleDeviation.keyOf _ _).toList) = _
          rw [OracleDeviation.toList_keyOf]
          rfl
      · contradiction
      · contradiction

theorem VolumeSpike.ofOtherRule {config : VolumeSpike.Config} {fuel : Nat}
    {states states' : VolumeSpike.States} {reports : List AnomalyReport}
    (hplain : invocation.Plain)
    (hevaluate : VolumeSpike.evaluate fuel config invocation states = some (reports, states'))
    (h : report ∈ reports) : OfOtherRule report.dedupKey := by
  unfold VolumeSpike.evaluate at hevaluate
  split at hevaluate
  next =>
    obtain ⟨rfl, -⟩ := Prod.mk.inj (Option.some.inj hevaluate)
    contradiction
  next nowMs _ =>
    obtain ⟨state, -, heq⟩ := Option.map_eq_some_iff.mp hevaluate
    obtain ⟨rfl, -⟩ := Prod.mk.inj heq
    simp only [VolumeSpike.anomalies] at h
    split_ifs at h
    · obtain rfl := List.mem_singleton.mp h
      refine ⟨VolumeSpike.ruleId, [invocation.contractId], by decide, ?_, ?_⟩
      · simp [Plain, VolumeSpike.ruleId, hplain.contractId]
      · apply String.toList_inj.mp
        simp only [VolumeSpike.spike, JoinedText.joined_cons_cons, JoinedText.joined_singleton,
          String.toList_append, List.append_assoc]
        rfl
    · contradiction
    · contradiction

theorem plain_parts_of_incident {config : UnauthorizedEntryPoint.Config} {x : Incident}
    (hplain : invocation.Plain) (h : incident config invocation = some x) :
    Plain ':' x.parts := by
  have hcondition : ∀ c : UnauthorizedEntryPoint.Condition, ':' ∉ c.text.toList := by
    rintro (_ | _) <;> decide
  unfold UnauthorizedEntryPoint.incident at h
  split at h
  next =>
    obtain rfl := Option.some.inj h
    have hname : ':' ∉ (invocation.functionName.getD "unknown").toList := by
      cases hfunction : invocation.functionName with
      | none => decide
      | some functionName => exact hplain.functionName functionName hfunction
    simp [Plain, Incident.parts, UnauthorizedEntryPoint.ruleId, hcondition, hname,
      hplain.contractId, hplain.sourceAccount]
  next =>
    obtain ⟨functionName, hintrusion, rfl⟩ := Option.map_eq_some_iff.mp h
    have hname := hplain.functionName functionName
      (OracleDeviation.watchedFunction_mem (Option.filter_eq_some_iff.mp hintrusion).1)
    simp [Plain, Incident.parts, UnauthorizedEntryPoint.ruleId, hcondition, hname,
      hplain.contractId, hplain.sourceAccount]

/-- An anomaly of the rules under the key of an incident is of the rule for incidents, and for
one just like it. -/
theorem incident_of_returns {fuel i : Nat} {config : MonitorConfig}
    {calls : List (Delivery NormalizedInvocation)} {d : Delivery NormalizedInvocation}
    {anomaly : Anomaly} {x : Incident} (hplain : d.invocation.Plain)
    (hreturns : Returns (createDefaultRules fuel config) i calls d anomaly)
    (hx : Plain ':' x.parts) (hkey : anomaly.dedupKey = x.dedupKey) :
    incident config.unauthorizedEntryPoint d.invocation = some x ∧
      anomaly ∈ anomaliesOf
        (UnauthorizedEntryPoint.evaluate config.unauthorizedEntryPoint d.invocation) := by
  have hother : ¬ OfOtherRule anomaly.dedupKey := by
    rintro ⟨ruleId, rest, hne, hparts, hkey'⟩
    have hsame := JoinedText.joined_inj hparts hx (List.cons_ne_nil _ _) (List.cons_ne_nil _ _)
      (hkey'.symm.trans hkey)
    exact hne (List.cons.inj hsame).1
  obtain ⟨rule, found, hrule, hfound, hmem⟩ := hreturns
  match i with
  | 0 =>
      obtain rfl := Option.some.inj hrule
      obtain rfl := Option.some.inj hfound
      obtain ⟨report, hreport, rfl⟩ := List.mem_map.mp hmem
      exact absurd (LargeValue.ofOtherRule hplain hreport) hother
  | 1 =>
      obtain rfl := Option.some.inj hrule
      obtain rfl := Option.some.inj hfound
      obtain ⟨report, hreport, rfl⟩ := List.mem_map.mp hmem
      exact absurd (OracleDeviation.ofOtherRule hplain hreport) hother
  | 2 =>
      obtain rfl := Option.some.inj hrule
      obtain rfl := Option.some.inj hfound
      obtain ⟨report, hreport, rfl⟩ := List.mem_map.mp hmem
      have hreported := List.mem_map_of_mem (f := (·.dedupKey)) hreport
      rw [UnauthorizedEntryPoint.map_dedupKey_evaluate] at hreported
      obtain ⟨y, hy, hkey'⟩ := List.mem_map.mp hreported
      have hincident := Option.mem_toList.mp hy
      refine ⟨?_, hmem⟩
      rw [hincident, Option.some.injEq]
      exact Incident.dedupKey_inj (plain_parts_of_incident hplain hincident) hx
        (hkey'.trans hkey)
  | 3 =>
      obtain rfl := Option.some.inj hrule
      obtain ⟨states, -, hfound⟩ := Option.bind_eq_some_iff.mp hfound
      obtain ⟨⟨reports, states'⟩, hevaluate, hfound⟩ := Option.bind_eq_some_iff.mp hfound
      obtain rfl := Option.some.inj hfound
      obtain ⟨report, hreport, rfl⟩ := List.mem_map.mp hmem
      exact absurd (VolumeSpike.ofOtherRule hplain hevaluate hreport) hother
  | _ + 4 => contradiction

/-! ## Runs -/

section Runs

variable {decodeScVal : String → Option Native} {cooldownMs : Nat}
  {rules : List (AnomalyRule NormalizedInvocation)}

theorem anomalyDetection_component : Component (anomalyDetection decodeScVal cooldownMs rules)
    (monitoring cooldownMs rules) id (StreamEvent.action decodeScVal) where
  initial s h := h
  step s event s' a h ha := by
    simp only [anomalyDetection, receive, ha] at h
    exact h
  other s event s' h ha := by
    simp only [anomalyDetection, receive, ha] at h
    exact (Option.some.inj h).symm

theorem StreamEvent.action_eq_deliver {event : StreamEvent} :
    event.action decodeScVal = some (.deliver invocation) ↔
      ∃ op, event = .message op ∧ normalizeOperation decodeScVal op = some invocation := by
  cases event <;> simp [StreamEvent.action]

/-- The dispatcher's part of a step. -/
abbrev dispatched (decodeScVal : String → Option Native)
    (t : Transition (Monitor NormalizedInvocation) StreamEvent) :
    Option (Transition (Monitor NormalizedInvocation) (Action NormalizedInvocation)) :=
  t.view id (StreamEvent.action decodeScVal)

theorem exists_message {steps : List (Transition (Monitor NormalizedInvocation) StreamEvent)}
    {t : Transition (Monitor NormalizedInvocation) (Action NormalizedInvocation)}
    (ht : t ∈ steps.filterMap (dispatched decodeScVal)) {d : Delivery NormalizedInvocation}
    (hd : Arrives t d) : ∃ u ∈ steps, ∃ op, u.action = .message op ∧
      normalizeOperation decodeScVal op = some d.invocation := by
  obtain ⟨u, hu, hview⟩ := List.mem_filterMap.mp ht
  obtain ⟨a, ha, rfl⟩ := Option.map_eq_some_iff.mp hview
  obtain ⟨invocation, rfl, rfl⟩ := hd
  exact ⟨u, hu, StreamEvent.action_eq_deliver.mp ha⟩

/-- Every operation that is an incident is alerted, once its call waits no more: the rule's
alert for an operation of the stream with just this incident, under its key, was posted since,
or less than a cooldown before. -/
theorem incidents_alerted {fuel : Nat} {config : MonitorConfig}
    {start s : Monitor NormalizedInvocation}
    {steps : List (Transition (Monitor NormalizedInvocation) StreamEvent)}
    {t : Transition (Monitor NormalizedInvocation) StreamEvent} {op : OperationRecord}
    {x : Incident} (hfresh : start.Fresh)
    (hrun : (anomalyDetection decodeScVal cooldownMs (createDefaultRules fuel config)).Run
      start steps s)
    (hplain : ∀ u ∈ steps, ∀ op invocation, u.action = .message op →
      normalizeOperation decodeScVal op = some invocation → invocation.Plain)
    (ht : t ∈ steps) (haction : t.action = .message op)
    (hop : normalizeOperation decodeScVal op = some invocation)
    (hincident : incident config.unauthorizedEntryPoint invocation = some x)
    (hdone : s.handlers t.before.delivered = none) :
    ∃ u ∈ steps, ∃ v d anomaly, dispatched decodeScVal u = some v ∧ Alerts v d anomaly ∧
      (∃ w ∈ steps, ∃ op', w.action = .message op' ∧
        normalizeOperation decodeScVal op' = some d.invocation) ∧
      incident config.unauthorizedEntryPoint d.invocation = some x ∧
      anomaly.dedupKey = x.dedupKey ∧
      anomaly ∈ anomaliesOf
        (UnauthorizedEntryPoint.evaluate config.unauthorizedEntryPoint d.invocation) ∧
      (t.before.now ≤ u.before.now ∨ t.before.now < u.before.now + cooldownMs) := by
  have hmonitor := anomalyDetection_component.run hrun
  have hview : dispatched decodeScVal t = some ⟨t.before, .deliver invocation, t.after⟩ := by
    simp [dispatched, Transition.view, haction, StreamEvent.action, hop]
  obtain ⟨earlier, later, -, htold⟩ := anomalies_told hfresh hmonitor
    (List.mem_filterMap.mpr ⟨t, ht, hview⟩) ⟨invocation, rfl, rfl⟩ hdone 2
    (show 2 < 4 by decide)
  have hparts := plain_parts_of_incident (hplain t ht op invocation haction hop) hincident
  have hreported : x.dedupKey ∈ (UnauthorizedEntryPoint.evaluate config.unauthorizedEntryPoint
      invocation).map (·.dedupKey) := by
    rw [UnauthorizedEntryPoint.map_dedupKey_evaluate, hincident]
    exact List.mem_cons_self
  obtain ⟨report, hreport, hkey⟩ := List.mem_map.mp hreported
  obtain ⟨v, hv, d, anomaly, halerts, hsame, htime⟩ := htold report.toAnomaly
    ⟨_, _, rfl, rfl, List.mem_map_of_mem hreport⟩
  obtain ⟨before, after, hsplit⟩ := List.append_of_mem hv
  obtain ⟨⟨i, _, _, _, hreturns⟩, ⟨w, hw, harrives⟩, -⟩ :=
    alerts_due hfresh hmonitor hsplit halerts
  have hprior : before ++ [v] ⊆ steps.filterMap (dispatched decodeScVal) := by
    intro w hw
    refine hsplit ▸ ?_
    rw [← List.singleton_append, ← List.append_assoc]
    exact List.mem_append_left _ hw
  obtain ⟨u, hu, hview'⟩ := List.mem_filterMap.mp hv
  obtain ⟨u', hu', op', haction', hop'⟩ := exists_message (hprior hw) harrives
  obtain ⟨hlike, hmem⟩ := incident_of_returns (hplain u' hu' op' _ haction' hop') hreturns hparts
    (hsame.trans hkey)
  refine ⟨u, hu, v, d, anomaly, hview', halerts, ⟨u', hu', op', haction', hop'⟩, hlike,
    hsame.trans hkey, hmem, ?_⟩
  obtain ⟨a, -, rfl⟩ := Option.map_eq_some_iff.mp hview'
  exact htime

end Runs

namespace Sample

/-- The contract and the function of the operation below. -/
def decodeScVal (encoded : String) : Option Native :=
  if encoded = "AAAAEgAAAAFWuK3fCnJ8I3roRKY2iFXwdQmbKo4oTIAu8AQ2jTY29Q==" then
    some (.string "CBLLRLO7BJZHYI325BCKMNUIKXYHKCM3FKHCQTEAF3YAINUNGY3PLNYD")
  else if encoded = "AAAADwAAAAlzZXRfcHJpY2UAAAA=" then some (.string "set_price")
  else none

/-- A price that was set in vain. -/
def setPrice : OperationRecord where
  id := 15924317099413505
  type := "invoke_host_function"
  parameters := some ["AAAAEgAAAAFWuK3fCnJ8I3roRKY2iFXwdQmbKo4oTIAu8AQ2jTY29Q==",
    "AAAADwAAAAlzZXRfcHJpY2UAAAA="]
  transactionHash := "f450990af691198c64cd010aca611675cfc012094cd8f5f2308eb6bca9b42e51"
  createdAt := "2026-07-20T13:56:57Z"
  createdAtMs := some 1784555817000
  sourceAccount := "GAEQ5IUNQTW36XMQF6MR2VWKPG3JOF6IKEGAD2JQ6OUNKTUVBAIE5AO3"
  transactionSuccessful := false

def config : MonitorConfig where
  largeValue := ⟨["mint_collateral"], 50000⟩
  oracleDeviation := ⟨["mint_collateral", "set_price"], 20, 3⟩
  unauthorizedEntryPoint := ⟨["mint_collateral", "set_price"], []⟩
  volumeSpike := ⟨60, 10, 3, 10⟩

def quiet : Monitor NormalizedInvocation :=
  ⟨1784555818000, fun _ => [], fun _ => none, [], fun _ => none, 0⟩

def failure : NormalizedInvocation where
  contractId := "CBLLRLO7BJZHYI325BCKMNUIKXYHKCM3FKHCQTEAF3YAINUNGY3PLNYD"
  txHash := "f450990af691198c64cd010aca611675cfc012094cd8f5f2308eb6bca9b42e51"
  ledger := 3707669
  occurredAt := "2026-07-20T13:56:57Z"
  occurredAtMs := some 1784555817000
  sourceAccount := "GAEQ5IUNQTW36XMQF6MR2VWKPG3JOF6IKEGAD2JQ6OUNKTUVBAIE5AO3"
  functionName := some "set_price"
  args := []
  successful := false

theorem normalizeOperation_setPrice : normalizeOperation decodeScVal setPrice = some failure := rfl

theorem failure_plain : failure.Plain where
  contractId := by decide
  functionName functionName h := by
    obtain rfl := Option.some.inj h
    decide
  sourceAccount := by decide

/-- The service with the default rules. -/
def service : TransitionSystem (Monitor NormalizedInvocation) StreamEvent :=
  anomalyDetection decodeScVal 900000 (createDefaultRules 1 config)

end Sample

/-- The failed call is alerted. -/
theorem sample_incidents_alerted : ∃ steps s, Sample.service.Run Sample.quiet steps s ∧
    ∃ u ∈ steps, ∃ v d anomaly, dispatched Sample.decodeScVal u = some v ∧ Alerts v d anomaly ∧
      incident Sample.config.unauthorizedEntryPoint d.invocation =
        some ⟨.failed, Sample.failure.contractId, "set_price", Sample.failure.sourceAccount⟩ := by
  let perform := receive Sample.decodeScVal 900000 (createDefaultRules 1 Sample.config)
  have hcomputed : ((perform Sample.quiet (.message Sample.setPrice)).bind fun s₁ =>
      (perform s₁ (.answer 0 (.status 200))).map fun s => (s.handlers 0).isNone) = some true := by
    decide +kernel
  obtain ⟨s₁, hs₁, hanswer⟩ := Option.bind_eq_some_iff.mp hcomputed
  obtain ⟨s, hs, hnone⟩ := Option.map_eq_some_iff.mp hanswer
  let steps : List (Transition (Monitor NormalizedInvocation) StreamEvent) :=
    [⟨Sample.quiet, .message Sample.setPrice, s₁⟩, ⟨s₁, .answer 0 (.status 200), s⟩]
  have hrun : Sample.service.Run Sample.quiet steps s := (TransitionSystem.Run.single hs₁).snoc hs
  have hplain : ∀ u ∈ steps, ∀ op invocation, u.action = .message op →
      normalizeOperation Sample.decodeScVal op = some invocation → invocation.Plain := by
    refine List.forall_mem_cons.mpr ⟨fun op invocation haction hop => ?_,
      List.forall_mem_singleton.mpr nofun⟩
    obtain rfl := StreamEvent.message.inj haction
    obtain rfl := Option.some.inj (Sample.normalizeOperation_setPrice.symm.trans hop)
    exact Sample.failure_plain
  obtain ⟨u, hu, v, d, anomaly, hview, halerts, -, hincident, -⟩ := incidents_alerted
    ⟨fun _ => rfl, fun _ => rfl, fun _ => rfl, rfl⟩ hrun hplain List.mem_cons_self rfl
    Sample.normalizeOperation_setPrice rfl (Option.isNone_iff_eq_none.mp hnone)
  exact ⟨steps, s, hrun, u, hu, v, d, anomaly, hview, halerts, hincident⟩

end StellarKraal.Monitoring
