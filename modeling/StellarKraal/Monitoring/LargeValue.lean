import Mathlib.Data.List.MinMax
import StellarKraal.Monitoring.Rules

/-!
# The rule for large values

The rule compares one number of an invocation with a threshold: the one of largest
magnitude anywhere in its arguments. No argument is too deep or too late to be found.
-/

namespace StellarKraal.Monitoring

/-- `x` is a numeric leaf of the argument, where it is finite: a `bigint` as a decimal with
seven places, a `number` as it is. -/
inductive Value.HasLeaf : Value → Number → Prop
  | bigint (value : Int) : HasLeaf (.bigint value) (value / 10 ^ 7)
  | number (x : Number) : HasLeaf (.number (some x)) x
  | array {items : List Value} {value : Value} {x : Number} (hmem : value ∈ items)
      (hleaf : value.HasLeaf x) : HasLeaf (.array items) x
  | object {values : List Value} {value : Value} {x : Number} (hmem : value ∈ values)
      (hleaf : value.HasLeaf x) : HasLeaf (.object values) x

/-- Of one of the arguments. -/
def HasLeaf (args : List Value) (x : Number) : Prop := ∃ value ∈ args, value.HasLeaf x

/-! ## The traversal -/

mutual

/-- The finite numbers of an argument, in the order in which they are visited. -/
def Value.leaves : Value → List Number
  | .bigint value => [value / 1e7]
  | .number value => value.toList
  | .array items => leavesOf items
  | .object values => leavesOf values
  | .other => []

def leavesOf : List Value → List Number
  | [] => []
  | value :: values => value.leaves ++ leavesOf values

end

/-- Of two numbers the first is kept, unless the second is larger. -/
theorem consider_eq (max candidate : Option Number) : consider max candidate =
    candidate.toList.foldl (List.argAux fun b c : Number => |c| < |b|) max := by
  cases candidate with
  | none => cases max <;> rfl
  | some candidate => cases max <;> rfl

mutual

theorem visit_eq (max : Option Number) (value : Value) :
    visit max value = value.leaves.foldl (List.argAux fun b c : Number => |c| < |b|) max := by
  cases value with
  | bigint value => exact consider_eq max _
  | number value => exact consider_eq max value
  | array items => exact visitAll_eq max items
  | object values => exact visitAll_eq max values
  | other => rfl

theorem visitAll_eq (max : Option Number) (values : List Value) :
    visitAll max values =
      (leavesOf values).foldl (List.argAux fun b c : Number => |c| < |b|) max := by
  cases values with
  | nil => rfl
  | cons value values =>
      rw [visitAll, visit_eq max value, visitAll_eq _ values, leavesOf, List.foldl_append]

end

theorem extractLargestNumericArg_eq (args : List Value) :
    extractLargestNumericArg args = (leavesOf args).argmax fun x => |x| :=
  visitAll_eq none args

mutual

theorem Value.mem_leaves {value : Value} {x : Number} : x ∈ value.leaves ↔ value.HasLeaf x := by
  cases value with
  | bigint value =>
      constructor
      · intro hx
        obtain rfl := List.mem_singleton.mp hx
        have hscale : (1e7 : Number) = 10 ^ 7 := by norm_num
        exact hscale ▸ .bigint value
      · rintro ⟨⟩
        norm_num [Value.leaves]
  | number value =>
      constructor
      · intro hx
        obtain rfl := Option.mem_toList.mp hx
        exact .number x
      · rintro ⟨⟩
        exact List.mem_singleton.mpr rfl
  | array items =>
      refine mem_leavesOf.trans ⟨fun ⟨_, hmem, hleaf⟩ => .array hmem hleaf, ?_⟩
      rintro ⟨⟩
      exact ⟨_, ‹_›, ‹_›⟩
  | object values =>
      refine mem_leavesOf.trans ⟨fun ⟨_, hmem, hleaf⟩ => .object hmem hleaf, ?_⟩
      rintro ⟨⟩
      exact ⟨_, ‹_›, ‹_›⟩
  | other => exact iff_of_false List.not_mem_nil nofun

theorem mem_leavesOf {values : List Value} {x : Number} :
    x ∈ leavesOf values ↔ HasLeaf values x := by
  cases values with
  | nil => simp [leavesOf, HasLeaf]
  | cons value values =>
      rw [leavesOf, List.mem_append, Value.mem_leaves, mem_leavesOf]
      simp [HasLeaf]

end

/-- Nothing is returned where there is no number. -/
theorem extractLargestNumericArg_eq_none {args : List Value} :
    extractLargestNumericArg args = none ↔ ∀ x, ¬ HasLeaf args x := by
  rw [extractLargestNumericArg_eq, List.argmax_eq_none, List.eq_nil_iff_forall_not_mem]
  simp only [mem_leavesOf]

/-- What is returned is one of the numbers, and none is larger. -/
theorem extractLargestNumericArg_eq_some {args : List Value} {m : Number}
    (h : extractLargestNumericArg args = some m) :
    HasLeaf args m ∧ ∀ x, HasLeaf args x → |x| ≤ |m| := by
  rw [extractLargestNumericArg_eq] at h
  refine ⟨mem_leavesOf.mp (List.argmax_mem h), fun x hx => ?_⟩
  exact List.le_of_mem_argmax (mem_leavesOf.mpr hx) h

namespace LargeValue

/-- What the rule reads of the configuration. -/
structure Config where
  largeValueFunctions : List String
  largeValueThreshold : Number

def ruleId : String := "large-value-invocation"

def large (config : Config) (invocation : NormalizedInvocation) (functionName : String)
    (observed : Number) : AnomalyReport where
  ruleId
  severity := .critical
  contractId := invocation.contractId
  txHash := invocation.txHash
  ledger := invocation.ledger
  functionName := invocation.functionName
  sourceAccount := invocation.sourceAccount
  observedValue := numberText observed
  thresholdValue := numberText config.largeValueThreshold
  message := s!"Abnormally large value ({numberText observed}) moved by \"{functionName}\" — " ++
    s!"possible wash-trading, exceeds threshold {numberText config.largeValueThreshold}"
  dedupKey := s!"{ruleId}:{invocation.contractId}:{functionName}:{invocation.sourceAccount}"
  occurredAt := invocation.occurredAt

def evaluate (config : Config) (invocation : NormalizedInvocation) : List AnomalyReport :=
  match watchedFunction config.largeValueFunctions invocation with
  | none => []
  | some functionName =>
      match extractLargestNumericArg invocation.args with
      | none => []
      | some observed =>
          if |observed| ≤ config.largeValueThreshold then []
          else [large config invocation functionName observed]

/-! ## When it fires -/

variable {config : Config} {invocation : NormalizedInvocation} {functionName : String}

theorem evaluate_ne_nil_iff
    (hwatched : watchedFunction config.largeValueFunctions invocation = some functionName) :
    evaluate config invocation ≠ [] ↔
      ∃ x, HasLeaf invocation.args x ∧ config.largeValueThreshold < |x| := by
  simp only [evaluate, hwatched]
  cases hlargest : extractLargestNumericArg invocation.args with
  | none =>
      have hnone := extractLargestNumericArg_eq_none.mp hlargest
      exact iff_of_false (fun h => h rfl) fun ⟨x, hx, _⟩ => hnone x hx
  | some m =>
      obtain ⟨hleaf, hmax⟩ := extractLargestNumericArg_eq_some hlargest
      dsimp only
      split
      next hle =>
        refine iff_of_false (fun h => h rfl) fun ⟨x, hx, hover⟩ => ?_
        exact absurd hover (not_lt.mpr ((hmax x hx).trans hle))
      next hover =>
        exact iff_of_true (List.cons_ne_nil _ _) ⟨m, hleaf, not_le.mp hover⟩

/-- The largest number of the arguments is found wherever it is, and a watched invocation is
flagged exactly if some number of it is above the threshold, whichever arguments hold it. -/
theorem large_values_found (config : Config) (invocation : NormalizedInvocation) :
    (extractLargestNumericArg invocation.args = none ↔ ∀ x, ¬ HasLeaf invocation.args x) ∧
    (∀ m, extractLargestNumericArg invocation.args = some m → HasLeaf invocation.args m ∧
      ∀ x, HasLeaf invocation.args x → |x| ≤ |m|) ∧
    ∀ functionName, watchedFunction config.largeValueFunctions invocation = some functionName →
      (evaluate config invocation ≠ [] ↔
        ∃ x, HasLeaf invocation.args x ∧ config.largeValueThreshold < |x|) ∧
      ∀ args, (∀ x, HasLeaf args x ↔ HasLeaf invocation.args x) →
        (evaluate config { invocation with args } ≠ [] ↔ evaluate config invocation ≠ []) := by
  refine ⟨extractLargestNumericArg_eq_none, fun m => extractLargestNumericArg_eq_some, ?_⟩
  intro functionName hwatched
  refine ⟨evaluate_ne_nil_iff hwatched, fun args hsame => ?_⟩
  have hwatched' : watchedFunction config.largeValueFunctions { invocation with args } =
      some functionName := hwatched
  rw [evaluate_ne_nil_iff hwatched, evaluate_ne_nil_iff hwatched']
  simp only [hsame]

/-! A transfer whose amount is two levels down. -/

namespace Sample

def mints : Config := ⟨["mint_collateral"], 50000⟩

def mint : NormalizedInvocation where
  contractId := "credit"
  txHash := "tx"
  ledger := 7
  occurredAt := ""
  occurredAtMs := some 0
  sourceAccount := "account"
  functionName := some "mint_collateral"
  args := [.number (some 12), .array [.other, .object [.bigint (-600000000000)]]]
  successful := true

end Sample

theorem sample_large_value : evaluate Sample.mints Sample.mint ≠ [] := by
  obtain ⟨-, -, hfires⟩ := large_values_found Sample.mints Sample.mint
  obtain ⟨hiff, -⟩ := hfires "mint_collateral" (by decide +kernel)
  have hleaf : HasLeaf Sample.mint.args (((-600000000000 : Int) : Number) / 10 ^ 7) :=
    ⟨_, .tail _ (.head _), .array (.tail _ (.head _)) (.object (.head _) (.bigint _))⟩
  exact hiff.mpr ⟨_, hleaf, by norm_num [Sample.mints]⟩

end LargeValue

end StellarKraal.Monitoring
