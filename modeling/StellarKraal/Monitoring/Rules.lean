import Mathlib.Data.Rat.Floor
import StellarKraal.Foundation.DecimalText
import StellarKraal.Monitoring.Dispatcher

/-!
# What the rules share

An invocation as the rules see it, an anomaly as they report it, and how numbers stand in
its texts. A `number` of the source is a rational here, and means and percentages are exact
where the code has doubles; only the rule for volumes rounds as they do.
-/

namespace StellarKraal.Monitoring

abbrev Number := ℚ

/-- A decoded argument. -/
inductive Value
  | bigint (value : Int)
  /-- `none` is `NaN` or an infinity. -/
  | number (value : Option Number)
  | array (items : List Value)
  /-- The values of its properties. -/
  | object (values : List Value)
  /-- A text, a boolean, `null` or `undefined`. -/
  | other

structure NormalizedInvocation where
  contractId : String
  txHash : String
  ledger : Nat
  occurredAt : String
  /-- `new Date(occurredAt).getTime()`, where it is finite. -/
  occurredAtMs : Option Int
  sourceAccount : String
  functionName : Option String
  args : List Value
  successful : Bool

/-- The function of a successful invocation, where it has a name and is in the list. -/
def watchedFunction (functions : List String) (invocation : NormalizedInvocation) :
    Option String :=
  if !invocation.successful then none
  else invocation.functionName.filter fun functionName =>
    functionName ≠ "" && functions.contains functionName

inductive AnomalySeverity
  | warning
  | critical
  deriving DecidableEq, Repr

/-- An anomaly with all that an alert says about it. -/
structure AnomalyReport extends Anomaly where
  severity : AnomalySeverity
  contractId : String
  txHash : String
  ledger : Nat
  functionName : Option String
  sourceAccount : String
  observedValue : String
  thresholdValue : String
  message : String
  occurredAt : String
  deriving DecidableEq, Repr

/-! ## The largest argument -/

/-- With a candidate, if it is finite. -/
def consider (max candidate : Option Number) : Option Number :=
  match candidate, max with
  | none, _ => max
  | some candidate, none => some candidate
  | some candidate, some m => if |candidate| > |m| then some candidate else some m

mutual

def visit (max : Option Number) : Value → Option Number
  | .bigint value => consider max (some (value / 1e7))
  | .number value => consider max value
  | .array items => visitAll max items
  | .object values => visitAll max values
  | .other => max

def visitAll (max : Option Number) : List Value → Option Number
  | [] => max
  | value :: values => visitAll (visit max value) values

end

def extractLargestNumericArg (args : List Value) : Option Number := visitAll none args

/-! ## Numbers -/

def mean (values : List Number) : Number :=
  if values.length = 0 then 0 else values.foldl (· + ·) 0 / values.length

theorem mean_eq_sum_div (values : List Number) : mean values = values.sum / values.length := by
  rw [mean]
  split
  next hnone => simp [List.length_eq_zero_iff.mp hnone]
  next => rw [← List.sum_eq_foldl]

/-- A number in a template. -/
def numberText (x : Number) : String := String.ofList (DecimalText.numberText x)

def toFixed (places : Nat) (x : Number) : String := String.ofList (DecimalText.toFixed places x)

end StellarKraal.Monitoring
