import StellarKraal.Monitoring.OracleDeviation

/-!
# Whose values make a baseline

The samples of a contract and a function are kept under one text. Where no name of a
function has a colon, the text tells which they are, so that a value is compared with
values of the same contract and the same function only.
-/

namespace StellarKraal.Monitoring.OracleDeviation

/-- A successful invocation of the watched function of the contract. -/
def Concerns (config : Config) (contractId functionName : String)
    (invocation : NormalizedInvocation) : Prop :=
  watchedFunction config.oraclePriceFunctions invocation = some functionName ∧
    invocation.contractId = contractId

instance (config : Config) (contractId functionName : String) :
    DecidablePred (Concerns config contractId functionName) := fun _ =>
  inferInstanceAs (Decidable (_ ∧ _))

/-- The values that the stream has for them. -/
def valuesOf (config : Config) (contractId functionName : String)
    (stream : List NormalizedInvocation) : List Number :=
  (stream.filter (Concerns config contractId functionName ·)).filterMap fun invocation =>
    extractLargestNumericArg invocation.args

/-- No function of the stream has a colon in its name. -/
def NamesPlain (stream : List NormalizedInvocation) : Prop :=
  ∀ invocation ∈ stream, ∀ functionName ∈ invocation.functionName, ':' ∉ functionName.toList

variable {config : Config} {invocation : NormalizedInvocation} {contractId functionName : String}
  {stream : List NormalizedInvocation}

/-! ## Keys -/

/-- What comes after the last separator is found, and so is what comes before. -/
theorem eq_of_last_separator {α : Type} {a : α} {before before' after after' : List α}
    (hafter : a ∉ after) (hafter' : a ∉ after')
    (h : before ++ a :: after = before' ++ a :: after') : before = before' ∧ after = after' := by
  rcases List.append_eq_append_iff.mp h with ⟨between, rfl, hrest⟩ | ⟨between, rfl, hrest⟩
  · cases between with
    | nil => simpa using hrest
    | cons b between =>
        obtain ⟨-, rfl⟩ := List.cons.inj hrest
        simp at hafter
  · cases between with
    | nil => simpa [eq_comm] using hrest
    | cons b between =>
        obtain ⟨-, rfl⟩ := List.cons.inj hrest
        simp at hafter'

theorem toList_keyOf (contractId functionName : String) :
    (keyOf contractId functionName).toList = contractId.toList ++ ':' :: functionName.toList := by
  simp only [keyOf, String.toList_append, List.append_assoc]
  rfl

theorem keyOf_inj {contractId' functionName' : String} (hplain : ':' ∉ functionName.toList)
    (hplain' : ':' ∉ functionName'.toList) :
    keyOf contractId functionName = keyOf contractId' functionName' ↔
      functionName = functionName' ∧ contractId = contractId' := by
  constructor
  · intro h
    have hlists := congrArg String.toList h
    rw [toList_keyOf, toList_keyOf] at hlists
    obtain ⟨hcontract, hname⟩ := eq_of_last_separator hplain hplain' hlists
    exact ⟨String.toList_inj.mp hname, String.toList_inj.mp hcontract⟩
  · rintro ⟨rfl, rfl⟩
    rfl

theorem watchedFunction_mem {functions : List String}
    (h : watchedFunction functions invocation = some functionName) :
    functionName ∈ invocation.functionName := by
  rw [watchedFunction] at h
  split at h
  · contradiction
  · exact (Option.filter_eq_some_iff.mp h).1

/-- A key is that of one contract and one function. -/
theorem filter_sampleKey (hplain : ':' ∉ functionName.toList) (hnames : NamesPlain stream) :
    stream.filter (sampleKey config · = some (keyOf contractId functionName)) =
      stream.filter (Concerns config contractId functionName ·) := by
  refine List.filter_congr fun invocation hmem => decide_eq_decide.mpr ?_
  rw [sampleKey, Concerns]
  cases hwatched : watchedFunction config.oraclePriceFunctions invocation with
  | none => simp
  | some name =>
      have hname := hnames invocation hmem name (watchedFunction_mem hwatched)
      rw [Option.map_some, Option.some.injEq, Option.some.injEq, keyOf_inj hname hplain]

/-- The samples are the last values. -/
theorem samples_eq (hplain : ':' ∉ functionName.toList) (hnames : NamesPlain stream) :
    (historyAfter config stream (keyOf contractId functionName)).getD [] =
      (valuesOf config contractId functionName stream).rtake historyLimit := by
  rw [historyAfter_apply, filter_sampleKey hplain hnames, foldl_record, valuesOf]

/-! ## Evaluations -/

theorem evaluate_fst {observed : Number} (history : History)
    (hwatched : watchedFunction config.oraclePriceFunctions invocation = some functionName)
    (hobserved : extractLargestNumericArg invocation.args = some observed) :
    (evaluate config invocation history).1 = anomalies config invocation functionName observed
      ((history (keyOf invocation.contractId functionName)).getD []) := by
  simp only [evaluate, hwatched, hobserved]

theorem anomalies_ne_nil_iff {observed : Number} {samples : List Number} :
    anomalies config invocation functionName observed samples ≠ [] ↔
      config.oracleDeviationMinSamples ≤ samples.length ∧
        config.oracleDeviationThresholdPct <
          deviationPct observed (samples.sum / samples.length) := by
  rw [anomalies, mean_eq_sum_div]
  split_ifs <;> simp_all

/-- A value is compared with the last fifty at most that came before it for the same contract
and function, whatever else the stream holds. -/
theorem baselines_separate (config : Config) (earlier : List NormalizedInvocation)
    (invocation : NormalizedInvocation) {functionName : String} {observed : Number}
    (hwatched : watchedFunction config.oraclePriceFunctions invocation = some functionName)
    (hobserved : extractLargestNumericArg invocation.args = some observed)
    (hnames : NamesPlain (earlier ++ [invocation])) :
    let values := valuesOf config invocation.contractId functionName earlier
    let samples := values.rtake 50
    let result := (evaluate config invocation (historyAfter config earlier)).1
    (historyAfter config earlier (keyOf invocation.contractId functionName)).getD [] = samples ∧
    result = anomalies config invocation functionName observed samples ∧
    (result ≠ [] ↔ config.oracleDeviationMinSamples ≤ min values.length 50 ∧
      config.oracleDeviationThresholdPct <
        deviationPct observed (samples.sum / samples.length)) ∧
    ∀ earlier', NamesPlain earlier' →
      earlier'.filter (Concerns config invocation.contractId functionName ·) =
        earlier.filter (Concerns config invocation.contractId functionName ·) →
          (evaluate config invocation (historyAfter config earlier')).1 = result := by
  intro values samples result
  obtain ⟨hearlier, hinvocation⟩ := List.forall_mem_append.mp hnames
  have hplain := hinvocation invocation (List.mem_singleton.mpr rfl) functionName
    (watchedFunction_mem hwatched)
  have hsamples : (historyAfter config earlier (keyOf invocation.contractId functionName)).getD [] =
      samples := samples_eq hplain hearlier
  have hresult : result = anomalies config invocation functionName observed samples := by
    rw [← hsamples]
    exact evaluate_fst _ hwatched hobserved
  refine ⟨hsamples, hresult, ?_, fun earlier' hnames' hsame => ?_⟩
  · rw [hresult, anomalies_ne_nil_iff, Trailing.length_rtake, min_comm]
  · rw [evaluate_fst _ hwatched hobserved, samples_eq hplain hnames', valuesOf, hsame, hresult]
    rfl

/-! Prices of two functions that differ in scale. -/

namespace Sample

def prices : Config := ⟨["set_price", "mint_collateral"], 20, 3⟩

def call (functionName : String) (value : Number) : NormalizedInvocation where
  contractId := "credit"
  txHash := "tx"
  ledger := 7
  occurredAt := ""
  occurredAtMs := some 0
  sourceAccount := "account"
  functionName := some functionName
  args := [.number (some value)]
  successful := true

def mixed : List NormalizedInvocation :=
  [call "set_price" 100, call "mint_collateral" 50000, call "set_price" 101,
    call "set_price" 99, call "mint_collateral" 50100]

end Sample

theorem sample_baselines :
    (evaluate Sample.prices (Sample.call "set_price" 150)
      (historyAfter Sample.prices Sample.mixed)).1 ≠ [] := by
  have hnames : NamesPlain (Sample.mixed ++ [Sample.call "set_price" 150]) := by
    unfold NamesPlain
    decide +kernel
  obtain ⟨-, -, hfires, -⟩ := @baselines_separate Sample.prices Sample.mixed
    (Sample.call "set_price" 150) "set_price" 150 (by decide +kernel) (by decide +kernel) hnames
  refine hfires.mpr ?_
  decide +kernel

end StellarKraal.Monitoring.OracleDeviation
