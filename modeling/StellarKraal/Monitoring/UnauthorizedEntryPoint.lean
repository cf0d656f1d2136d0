import Mathlib.Data.String.Basic
import StellarKraal.Monitoring.Rules

/-!
# The rule for unauthorized entry points

It flags the calls that failed, and the calls of privileged functions by accounts that are
not on the list. Of each it keeps apart what is wrong, the contract, the function and the
account.
-/

/-! ## Texts that are joined

Parts with a separator between them can be told apart again, where no part holds it. -/

namespace JoinedText

/-- The text of the parts, with the character between them. -/
def joined (c : Char) (parts : List String) : String :=
  String.intercalate (String.singleton c) parts

variable {c : Char} {part : String} {parts parts' : List String}

@[simp] theorem joined_singleton : joined c [part] = part :=
  String.intercalate_singleton

@[simp] theorem joined_cons_cons {next : String} :
    joined c (part :: next :: parts) = part ++ String.singleton c ++ joined c (next :: parts) :=
  String.intercalate_cons_cons

/-- None of the parts holds the separator. -/
def Plain (c : Char) (parts : List String) : Prop :=
  ∀ part ∈ parts, c ∉ part.toList

theorem split_joined (hplain : Plain c parts) (hne : parts ≠ []) :
    ((joined c parts).split c).toList.map (·.copy) = parts := by
  rw [joined, String.toList_split_intercalate hplain, if_neg hne]

theorem joined_inj (hplain : Plain c parts) (hplain' : Plain c parts') (hne : parts ≠ [])
    (hne' : parts' ≠ []) (h : joined c parts = joined c parts') : parts = parts' := by
  rw [← split_joined hplain hne, h, split_joined hplain' hne']

end JoinedText

namespace StellarKraal.Monitoring.UnauthorizedEntryPoint

open JoinedText (joined Plain)

/-- What the rule reads of the configuration. -/
structure Config where
  privilegedFunctions : List String
  allowedInvokerAccounts : List String

def ruleId : String := "unauthorized-entry-point"

def failed (invocation : NormalizedInvocation) : AnomalyReport :=
  let fnLabel := invocation.functionName.getD "(undecoded function)"
  let functionName := invocation.functionName.getD "unknown"
  { ruleId
    severity := .critical
    contractId := invocation.contractId
    txHash := invocation.txHash
    ledger := invocation.ledger
    functionName := invocation.functionName
    sourceAccount := invocation.sourceAccount
    observedValue := "failed"
    thresholdValue := "success"
    message := s!"Call to \"{fnLabel}\" from {invocation.sourceAccount} failed on-chain " ++
      "(contract error)"
    dedupKey := s!"{ruleId}:failed:{invocation.contractId}:{functionName}:" ++
      invocation.sourceAccount
    occurredAt := invocation.occurredAt }

def unauthorized (config : Config) (invocation : NormalizedInvocation) (functionName : String) :
    AnomalyReport where
  ruleId
  severity := .critical
  contractId := invocation.contractId
  txHash := invocation.txHash
  ledger := invocation.ledger
  functionName := invocation.functionName
  sourceAccount := invocation.sourceAccount
  observedValue := invocation.sourceAccount
  thresholdValue :=
    s!"allowlisted account ({config.allowedInvokerAccounts.dedup.length} configured)"
  message := s!"Privileged function \"{functionName}\" invoked by non-allowlisted account " ++
    invocation.sourceAccount
  dedupKey := s!"{ruleId}:unauthorized:{invocation.contractId}:{functionName}:" ++
    invocation.sourceAccount
  occurredAt := invocation.occurredAt

/-- The privileged function that is called, where the account may not do so. -/
def Config.intrusion (config : Config) (invocation : NormalizedInvocation) : Option String :=
  (watchedFunction config.privilegedFunctions invocation).filter fun _ =>
    config.allowedInvokerAccounts.length > 0 &&
      !config.allowedInvokerAccounts.contains invocation.sourceAccount

def evaluate (config : Config) (invocation : NormalizedInvocation) : List AnomalyReport :=
  (if !invocation.successful then [failed invocation] else []) ++
    ((config.intrusion invocation).map (unauthorized config invocation)).toList

/-! ## Incidents -/

inductive Condition
  | failed
  | unauthorized
  deriving DecidableEq

def Condition.text : Condition → String
  | .failed => "failed"
  | .unauthorized => "unauthorized"

/-- What the rule keeps apart. -/
@[ext]
structure Incident where
  condition : Condition
  contractId : String
  functionName : String
  sourceAccount : String
  deriving DecidableEq

def Incident.parts (x : Incident) : List String :=
  [ruleId, x.condition.text, x.contractId, x.functionName, x.sourceAccount]

def Incident.dedupKey (x : Incident) : String := joined ':' x.parts

/-- What is wrong with the invocation. -/
def incident (config : Config) (invocation : NormalizedInvocation) : Option Incident :=
  if !invocation.successful then
    some ⟨.failed, invocation.contractId, invocation.functionName.getD "unknown",
      invocation.sourceAccount⟩
  else (config.intrusion invocation).map fun functionName =>
    ⟨.unauthorized, invocation.contractId, functionName, invocation.sourceAccount⟩

variable {config : Config} {invocation : NormalizedInvocation} {x y : Incident}

theorem failed_dedupKey : (failed invocation).dedupKey = Incident.dedupKey
    ⟨.failed, invocation.contractId, invocation.functionName.getD "unknown",
      invocation.sourceAccount⟩ := by
  apply String.toList_inj.mp
  simp only [failed, Incident.dedupKey, Incident.parts, JoinedText.joined_cons_cons,
    JoinedText.joined_singleton, String.toList_append, List.append_assoc]
  rfl

theorem unauthorized_dedupKey {functionName : String} :
    (unauthorized config invocation functionName).dedupKey = Incident.dedupKey
      ⟨.unauthorized, invocation.contractId, functionName, invocation.sourceAccount⟩ := by
  apply String.toList_inj.mp
  simp only [unauthorized, Incident.dedupKey, Incident.parts, JoinedText.joined_cons_cons,
    JoinedText.joined_singleton, String.toList_append, List.append_assoc]
  rfl

/-- There is one anomaly for an incident, under its key. -/
theorem map_dedupKey_evaluate : (evaluate config invocation).map (·.dedupKey) =
    (incident config invocation).toList.map Incident.dedupKey := by
  cases hsuccessful : invocation.successful with
  | false =>
      have hnone : config.intrusion invocation = none := by
        simp [Config.intrusion, watchedFunction, hsuccessful]
      simp [evaluate, incident, hsuccessful, hnone, failed_dedupKey]
  | true =>
      cases hintrusion : config.intrusion invocation with
      | none => simp [evaluate, incident, hsuccessful, hintrusion]
      | some functionName =>
          simp [evaluate, incident, hsuccessful, hintrusion, unauthorized_dedupKey]

theorem Condition.text_inj {c c' : Condition} (h : c.text = c'.text) : c = c' := by
  cases c <;> cases c' <;> first | rfl | exact absurd h (by decide)

theorem Incident.dedupKey_inj (hx : Plain ':' x.parts) (hy : Plain ':' y.parts)
    (h : x.dedupKey = y.dedupKey) : x = y := by
  have hparts := JoinedText.joined_inj hx hy (List.cons_ne_nil _ _) (List.cons_ne_nil _ _) h
  simp only [Incident.parts, List.cons.injEq, and_true, true_and] at hparts
  obtain ⟨htext, hcontract, hfunction, haccount⟩ := hparts
  exact Incident.ext (Condition.text_inj htext) hcontract hfunction haccount

end StellarKraal.Monitoring.UnauthorizedEntryPoint
